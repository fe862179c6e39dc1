/-
Children of a parent that the running transaction consumed. A virtual
substate has no life of its own: it is there as long as its parent is, and
as long as it was not consumed itself. Who answers for the parent depends on
the reference.

# Two answers

A child reached through the transaction has its parent looked up among the
live substates created here, so it is gone with its parent
(`look_createdVirtual_of_gone`). A child reached through committed state has
its parent answered by the store, which knows nothing of the transaction:
consuming the parent here leaves the child as it was
(`look_virtual_eq`). Only consumption of the child itself is seen, and the
marks say exactly what was consumed (`mem_consumed_iff`).
-/
import LedgerCore.Proofs.Machine.Closing
import LedgerCore.Proofs.Machine.Replay

namespace LedgerCore

/-- The id by which virtual substates name a parent: the id of a committed or
virtual one, the boot-up number of a created one. -/
inductive ScanSource.Names : ScanSource → SubstateId → Prop
  | created (index : UInt32) : Names (.created index.toNat) (.created index)
  | committed {id : SubstateId} (elsewhere : id.createdIndex? = none) : Names (.committed id) id

variable {P R : Type}

namespace Overlay

-- ================================================================ consumption

/-- Consuming a source uses up no other. -/
theorem Gone.of_consume {overlay : Overlay P} {source other : ScanSource}
    (h : (overlay.consume other).Gone source) : source = other ∨ overlay.Gone source := by
  cases source with
  | committed id =>
      cases other with
      | committed gone => exact (List.mem_cons.mp h).imp_left (congrArg _)
      | created number => exact .inr h
  | created number =>
      cases other with
      | committed id => exact .inr h
      | created gone =>
          obtain ⟨hlt, hnone⟩ := h
          rw [Overlay.consume, created?_dropCreated] at hnone
          split at hnone
          · next same => exact .inl (congrArg _ same.symm)
          · refine .inr ⟨?_, hnone⟩
            simpa [Overlay.consume, dropCreated] using hlt

/-- What is gone after some sources were consumed is one of them, or was gone
before. -/
theorem Gone.of_foldl {overlay : Overlay P} {source : ScanSource} {sources : List ScanSource}
    (h : (sources.foldl Overlay.consume overlay).Gone source) :
    source ∈ sources ∨ overlay.Gone source := by
  induction sources generalizing overlay with
  | nil => exact .inr h
  | cons other rest ih =>
      rcases ih h with later | gone
      · exact .inl (List.mem_cons_of_mem _ later)
      · rcases gone.of_consume with rfl | before
        · exact .inl List.mem_cons_self
        · exact .inr before

/-- A creation uses up nothing: what it fills is a new slot. -/
theorem Gone.of_create [StateObject P] {overlay : Overlay P} {source : ScanSource}
    {id : SubstateId} {object : P} {encoding : Bytes}
    (h : (overlay.create id object encoding).Gone source) : overlay.Gone source := by
  cases source with
  | committed id => exact h
  | created number =>
      obtain ⟨hlt, hnone⟩ := h
      have hle : number ≤ overlay.slots.length := by
        simpa [Overlay.create, Nat.lt_succ_iff] using hlt
      rcases Nat.lt_or_eq_of_le hle with old | rfl
      · exact ⟨old, by rwa [created?_create_of_lt old] at hnone⟩
      · rw [created?_create_self] at hnone
        cases hnone

-- =================================================================== children

variable [StateObject P]

/-- A child reached through the transaction is gone with its parent. -/
theorem look_createdVirtual_of_gone (ledger : Ledger P) {overlay : Overlay P}
    {source : ScanSource} {parent : SubstateId} (names : source.Names parent)
    (gone : overlay.Gone source) (key : Bytes) :
    ∃ cause, overlay.look ledger (.createdVirtual (.virtual parent key)) = .error cause
      ∧ cause.category = .stateConsistency := by
  by_cases consumed : .virtual parent key ∈ overlay.consumed
  · exact ⟨_, look_createdVirtual_of_mem consumed, rfl⟩
  · refine ⟨.virtualParentMissing (.virtual parent key), ?_, rfl⟩
    cases names with
    | created index => simp only [look, lookCreatedVirtual, if_neg consumed, gone.2]
    | committed elsewhere =>
        cases parent with
        | created index => cases elsewhere
        | stored address => simp only [look, lookCreatedVirtual, if_neg consumed]
        | virtual parent other => simp only [look, lookCreatedVirtual, if_neg consumed]

/-- A child reached through committed state is found or not as it was before
the transaction, unless the child itself was consumed. -/
theorem look_virtual_eq (ledger : Ledger P) (overlay : Overlay P) (id : SubstateId) :
    overlay.look ledger (.virtual id)
      = if id ∈ overlay.consumed then .error (.virtualAlreadyDown id)
        else Overlay.empty.look ledger (.virtual id) := by
  split
  · next consumed => exact look_virtual_of_mem consumed
  · next live =>
      have fresh : id ∉ (Overlay.empty : Overlay P).consumed := List.not_mem_nil
      simp only [look, lookVirtual, if_neg live, if_neg fresh]

end Overlay

namespace Machine

variable [StateObject P] [ReducerState R] {machine : Machine P R}

-- ======================================================================= steps

/-- A step that succeeds uses up what it consumes and nothing else. -/
theorem consumes_of_gone {ledger : Ledger P} {position : Nat} {instruction : Instruction}
    {run after : Run P R} {source : ScanSource}
    (h : machine.step ledger position instruction run = (.ok (), after))
    (gone : after.overlay.Gone source) :
    source ∈ machine.consumes ledger instruction run ∨ run.overlay.Gone source := by
  obtain ⟨updates, overlay, applies, hoverlay, -⟩ := applies_of_step h
  rw [hoverlay] at gone
  cases applies with
  | up decoded => exact .inr gone.of_create
  | down look =>
      rw [Overlay.without_eq_consume] at gone
      exact gone.of_consume.imp_left List.mem_singleton.mpr
  | downIndex known =>
      rw [Overlay.consumeAll_eq_foldl] at gone
      exact gone.of_foldl
  | _ => exact .inr gone

-- ================================================================ transactions

variable {store : CommittedStore} {ctx : Context} {instructions : List Instruction}

/-- An instruction before that position consumed the source. -/
def ConsumedBefore (machine : Machine P R) (store : CommittedStore) (ctx : Context)
    (instructions : List Instruction) (position : Nat) (source : ScanSource) : Prop :=
  ∃ earlier < position, ∃ instruction before after,
    machine.Reached store ctx instructions earlier before
      ∧ instructions[earlier]? = some instruction
      ∧ machine.step ⟨store, machine.format⟩ earlier instruction before = (.ok (), after)
      ∧ source ∈ machine.consumes ⟨store, machine.format⟩ instruction before

/-- What was consumed before a position is gone there. -/
theorem ConsumedBefore.gone {position : Nat} {source : ScanSource} {later : Run P R}
    (consumed : machine.ConsumedBefore store ctx instructions position source)
    (reached : machine.Reached store ctx instructions position later) :
    later.overlay.Gone source := by
  obtain ⟨earlier, hlt, instruction, before, after, reached', here, applied, consumes⟩ := consumed
  exact Reached.keeps (I := fun run => run.overlay.Gone source) gone_of_step
    (.step reached' here applied) (gone_of_mem_consumes applied consumes) reached hlt

/-- What is used up are the sources that the instructions before consumed. -/
theorem gone_iff {position : Nat} {later : Run P R} {source : ScanSource}
    (reached : machine.Reached store ctx instructions position later) :
    later.overlay.Gone source
      ↔ machine.ConsumedBefore store ctx instructions position source := by
  constructor
  · intro gone
    induction reached with
    | start hook =>
        cases source with
        | created number => exact absurd gone.1 (Nat.not_lt_zero _)
        | committed id => cases gone
    | @step position instruction run after reached here applied ih =>
        rcases consumes_of_gone applied gone with consumes | before
        · exact ⟨position, Nat.lt_succ_self _, instruction, run, after, reached, here, applied,
            consumes⟩
        · obtain ⟨earlier, hlt, rest⟩ := ih before
          exact ⟨earlier, Nat.lt_succ_of_lt hlt, rest⟩
  · intro consumed
    exact consumed.gone reached

/-- The marks are on what the instructions before consumed, and on nothing
else. -/
theorem mem_consumed_iff {position : Nat} {later : Run P R} {id : SubstateId}
    (reached : machine.Reached store ctx instructions position later) :
    id ∈ later.overlay.consumed
      ↔ machine.ConsumedBefore store ctx instructions position (.committed id) := by
  change later.overlay.Gone (.committed id) ↔ _
  exact gone_iff reached

/-- The transaction is rejected for want of consistency at a position where a
reference is used that finds nothing for that reason. -/
theorem rejected_of_look_error {position : Nat} {later : Run P R} {target : SubstateRef}
    {cause : ExecutionError} (reached : machine.Reached store ctx instructions position later)
    (look : later.overlay.look ⟨store, machine.format⟩ target = .error cause)
    (category : cause.category = .stateConsistency)
    (uses : instructions[position]? = some (.read target)
      ∨ instructions[position]? = some (.down target)) :
    ∃ state cause, (machine.verify store ctx instructions).outcome
        = .error ⟨position, state, cause⟩ ∧ cause.category = .stateConsistency := by
  obtain ⟨instruction, here, form⟩ : ∃ instruction, instructions[position]? = some instruction
      ∧ (instruction = .read target ∨ instruction = .down target) := by
    rcases uses with here | here
    · exact ⟨_, here, .inl rfl⟩
    · exact ⟨_, here, .inr rfl⟩
  obtain ⟨cause', failed, stepped, category'⟩ : ∃ cause after,
      machine.step ⟨store, machine.format⟩ position instruction later = (.error cause, after)
        ∧ cause.category = .stateConsistency :=
    step_of_look_error look category form
  exact ⟨_, cause', verify_of_step_error reached here stepped, category'⟩

/-- What becomes of children once their parent is consumed. Through the
transaction, a child can be neither read nor consumed any more. Through
committed state, it is where it was, unless it was itself consumed. -/
theorem children_of_consumed {position : Nat} {later : Run P R} {source : ScanSource}
    {parent : SubstateId}
    (consumed : machine.ConsumedBefore store ctx instructions position source)
    (reached : machine.Reached store ctx instructions position later)
    (names : source.Names parent) (key : Bytes) :
    (instructions[position]? = some (.read (.createdVirtual (.virtual parent key)))
        ∨ instructions[position]? = some (.down (.createdVirtual (.virtual parent key))) →
      ∃ state cause, (machine.verify store ctx instructions).outcome
          = .error ⟨position, state, cause⟩ ∧ cause.category = .stateConsistency)
    ∧ (machine.ConsumedBefore store ctx instructions position (.committed (.virtual parent key)) →
        instructions[position]? = some (.read (.virtual (.virtual parent key)))
          ∨ instructions[position]? = some (.down (.virtual (.virtual parent key))) →
        ∃ state cause, (machine.verify store ctx instructions).outcome
            = .error ⟨position, state, cause⟩ ∧ cause.category = .stateConsistency)
    ∧ (¬ machine.ConsumedBefore store ctx instructions position
          (.committed (.virtual parent key)) →
        later.overlay.look ⟨store, machine.format⟩ (.virtual (.virtual parent key))
          = Overlay.empty.look ⟨store, machine.format⟩ (.virtual (.virtual parent key))) := by
  refine ⟨?_, ?_, ?_⟩
  · intro uses
    obtain ⟨cause, look, category⟩ :=
      Overlay.look_createdVirtual_of_gone ⟨store, machine.format⟩ names (consumed.gone reached) key
    exact rejected_of_look_error reached look category uses
  · intro child uses
    exact rejected_of_look_error reached
      (Overlay.look_virtual_of_mem ((mem_consumed_iff reached).mpr child)) rfl uses
  · intro live
    rw [Overlay.look_virtual_eq, if_neg fun marked => live ((mem_consumed_iff reached).mp marked)]

end Machine

namespace Token

/-- Creates a parent of validators, consumes it, and looks for a child. -/
def orphanedHere : List Instruction := [
  .up (.stored [6]) validatorParent, .close, .down (.created 0), .close,
  .read (.createdVirtual (.virtual (.created 0) [3])), .close]

/-- Consumes the committed parent of validators, and looks for a child. -/
def orphanedBefore : List Instruction := [
  .down (.committed (.stored [9])), .close, .read (.virtual (.virtual (.stored [9]) [3])), .close]

end Token

namespace Machine

open Token

/-- A child of a parent created and consumed here is what the transaction is
rejected for. -/
theorem orphan_not_read :
    ∃ before, freeMachine.Reached holdingAndParent.toStore userContext orphanedHere 4 before
      ∧ freeMachine.ConsumedBefore holdingAndParent.toStore userContext orphanedHere 4 (.created 0)
      ∧ ScanSource.Names (.created 0) (.created 0)
      ∧ ∃ state cause,
          (freeMachine.verify holdingAndParent.toStore userContext orphanedHere).outcome
            = .error ⟨4, state, cause⟩ ∧ cause.category = .stateConsistency := by
  let ledger : Ledger Object := ⟨holdingAndParent.toStore, freeMachine.format⟩
  let walk (count : Nat) := freeMachine.steps ledger 0 (orphanedHere.take count) untouched
  have walked (count : Nat) (h : (walk count).1 = .ok ()) (hle : count ≤ orphanedHere.length) :
      freeMachine.Reached holdingAndParent.toStore userContext orphanedHere count (walk count).2 :=
    reached_of_walk hle rfl h
  have reached := walked 4 (by decide +kernel) (by decide)
  have stepped : (freeMachine.step ledger 2 (.down (.created 0)) (walk 2).2).1 = .ok () := by
    decide +kernel
  have consumed : freeMachine.ConsumedBefore holdingAndParent.toStore userContext orphanedHere 4
      (.created 0) :=
    ⟨2, by decide, .down (.created 0), _, _, walked 2 (by decide +kernel) (by decide), rfl,
      Prod.ext stepped rfl, List.mem_singleton.mpr rfl⟩
  obtain ⟨rejected, -⟩ := children_of_consumed consumed reached (.created 0) [3]
  exact ⟨_, reached, consumed, .created 0, rejected (.inl rfl)⟩

/-- A child of a committed parent is read although the parent was consumed. -/
theorem committed_orphan_read :
    ¬ ∀ (machine : Machine Object Holding) (store : CommittedStore) (ctx : Context)
        (instructions : List Instruction) (position : Nat) (source : ScanSource)
        (parent : SubstateId) (key : Bytes),
        machine.ConsumedBefore store ctx instructions position source → source.Names parent →
        instructions[position]? = some (.read (.virtual (.virtual parent key))) →
        ∃ rejection, (machine.verify store ctx instructions).outcome = .error rejection := by
  intro orphans
  have accepted : (freeMachine.verify holdingAndParent.toStore userContext
      orphanedBefore).outcome.isOk = true := by
    decide +kernel
  have stepped : (freeMachine.step ⟨holdingAndParent.toStore, freeMachine.format⟩ 0
      (.down (.committed (.stored [9]))) untouched).1 = .ok () := by
    decide +kernel
  obtain ⟨rejection, rejected⟩ := orphans freeMachine holdingAndParent.toStore userContext
    orphanedBefore 2 (.committed (.stored [9])) (.stored [9]) [3]
    ⟨0, by decide, .down (.committed (.stored [9])), untouched, _, .start rfl, rfl,
      Prod.ext stepped rfl, List.mem_singleton.mpr rfl⟩
    (.committed rfl) rfl
  rw [rejected] at accepted
  cases accepted

end Machine

end LedgerCore
