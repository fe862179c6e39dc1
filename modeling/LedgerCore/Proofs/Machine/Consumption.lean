/-
What a transaction has consumed stays consumed. Consumption is kept in two
places, the marks on committed and virtual substates and the emptied slots
of created ones; `Overlay.Gone` says of either that a source is used up.

# The invariant

`Gone` is kept by everything an overlay undergoes (`Gone.consume`,
`Gone.create`), hence by every successful step (`gone_of_step`) and along
every run (`Machine.Reached.keeps`). Its introduction is
`gone_of_mem_consumes`: a step that succeeds leaves everything it consumed
gone. This covers the deferred writes of a consuming scan: what its procedure
was handed, it was offered, and all of that was live when the scan was opened.
Its use is `look_of_gone` and `not_mem_scanSources_of_gone`: what is gone can
be neither read nor consumed nor offered by a scan.
-/
import LedgerCore.Proofs.Machine.Run
import LedgerCore.Proofs.Machine.Scan
import LedgerCore.Store.Snapshot
import LedgerCore.Token.Base

namespace LedgerCore

variable {P R : Type}

namespace Overlay

-- ============================================================== being used up

/-- A source is used up: a committed or virtual substate is marked, a
created one has left its slot empty. -/
def Gone (overlay : Overlay P) : ScanSource → Prop
  | .created number => number < overlay.slots.length ∧ overlay.created? number = none
  | .committed id => id ∈ overlay.consumed

/-- Whatever is consumed next, what is gone stays gone. -/
theorem Gone.consume {overlay : Overlay P} {source : ScanSource} (h : overlay.Gone source)
    (other : ScanSource) : (overlay.consume other).Gone source := by
  cases source with
  | created number =>
      obtain ⟨hlt, hnone⟩ := h
      cases other with
      | created gone =>
          refine ⟨by simpa [Overlay.consume, dropCreated] using hlt, ?_⟩
          rw [Overlay.consume, created?_dropCreated]
          split
          · rfl
          · exact hnone
      | committed id => exact ⟨hlt, hnone⟩
  | committed id =>
      cases other with
      | created gone => exact h
      | committed other => exact List.mem_cons_of_mem _ h

/-- Whatever is created, what is gone stays gone: a new substate takes a new
slot. -/
theorem Gone.create [StateObject P] {overlay : Overlay P} {source : ScanSource}
    (h : overlay.Gone source) (id : SubstateId) (object : P) (encoding : Bytes) :
    (overlay.create id object encoding).Gone source := by
  cases source with
  | created number =>
      obtain ⟨hlt, hnone⟩ := h
      refine ⟨?_, ?_⟩
      · rw [Overlay.create, List.length_append]
        exact Nat.lt_add_right _ hlt
      · rw [created?_create_of_lt hlt]
        exact hnone
  | committed id => exact h

-- ================================================================= being there

/-- A source whose consumption uses something up: a created substate needs
to have a slot. -/
def Known (overlay : Overlay P) : ScanSource → Prop
  | .created number => number < overlay.slots.length
  | .committed _ => True

/-- What is consumed is gone. -/
theorem gone_consume_self {overlay : Overlay P} {source : ScanSource}
    (h : overlay.Known source) : (overlay.consume source).Gone source := by
  cases source with
  | created number =>
      have hlt : number < overlay.slots.length := h
      refine ⟨by simpa [Overlay.consume, dropCreated] using hlt, ?_⟩
      rw [Overlay.consume, created?_dropCreated, if_pos rfl]
  | committed id => exact List.mem_cons_self

/-- A slot that is emptied is still a slot. -/
theorem Known.consume {overlay : Overlay P} {source : ScanSource} (h : overlay.Known source)
    (other : ScanSource) : (overlay.consume other).Known source := by
  cases source with
  | created number =>
      cases other with
      | created gone => simpa [Known, Overlay.consume, dropCreated] using h
      | committed id => exact h
  | committed id => trivial

/-- Of several sources consumed one after the other, each is gone at the
end. -/
theorem gone_foldl_of_mem {overlay : Overlay P} {source : ScanSource} {sources : List ScanSource}
    (hmem : source ∈ sources) (known : overlay.Known source) :
    (sources.foldl Overlay.consume overlay).Gone source := by
  induction sources generalizing overlay with
  | nil => cases hmem
  | cons other rest ih =>
      rcases List.mem_cons.mp hmem with rfl | hrest
      · -- consumed here, and nothing after it brings it back
        exact List.foldlRecOn (motive := fun (after : Overlay P) => after.Gone source) rest
          Overlay.consume (gone_consume_self known) fun _ gone other _ => gone.consume other
      · exact ih hrest (known.consume other)

/-- A created substate that is there has a slot. -/
theorem lt_length_of_created? {overlay : Overlay P} {number : Nat} {substate : CreatedSubstate P}
    (h : overlay.created? number = some substate) : number < overlay.slots.length := by
  rcases Nat.lt_or_ge number overlay.slots.length with hlt | hge
  · exact hlt
  · rw [created?, List.getElem?_eq_none hge] at h
    cases h

/-- What a reference finds can be consumed. -/
theorem known_of_look [StateObject P] {ledger : Ledger P} {overlay : Overlay P}
    {target : SubstateRef} {found : Found P} (h : overlay.look ledger target = .ok found) :
    overlay.Known target.source := by
  cases target with
  | created index =>
      simp only [look, lookCreated] at h
      split at h
      · cases h
      · next substate hcreated => exact lt_length_of_created? hcreated
  | committed id => trivial
  | virtual id => trivial
  | createdVirtual id => trivial

/-- What a scan offers can be consumed. -/
theorem known_of_mem_scan {ledger : Ledger P} {overlay : Overlay P} {index : SubstateIndex}
    {entry : ScanEntry P} (h : .ok entry ∈ overlay.scan ledger index) :
    overlay.Known entry.source := by
  rcases ok_mem_scan_iff.mp h with hcreated | ⟨raw, -, -, -, hentry⟩
  · obtain ⟨number, substate, hsome, -, rfl⟩ := mem_createdEntries_iff.mp hcreated
    exact lt_length_of_created? hsome
  · rw [hentry]
    trivial

-- ============================================================= no second use

/-- What is gone is not found by any reference, and the reason is one of
state consistency. -/
theorem look_of_gone [StateObject P] (ledger : Ledger P) {overlay : Overlay P}
    {target : SubstateRef} (h : overlay.Gone target.source) :
    ∃ cause, overlay.look ledger target = .error cause
      ∧ cause.category = .stateConsistency := by
  cases target with
  | committed id => exact ⟨_, look_committed_of_mem h, rfl⟩
  | virtual id => exact ⟨_, look_virtual_of_mem h, rfl⟩
  | created index =>
      refine ⟨.createdNotFound index, ?_, rfl⟩
      rw [look, lookCreated, h.2]
  | createdVirtual id => exact ⟨_, look_createdVirtual_of_mem h, rfl⟩

/-- What is gone is not behind any offer of a scan. -/
theorem not_mem_scanSources_of_gone {ledger : Ledger P} {overlay : Overlay P}
    {index : SubstateIndex} {source : ScanSource} (h : overlay.Gone source) :
    source ∉ overlay.scanSources ledger index := by
  intro hmem
  rcases List.mem_append.mp hmem with hcreated | hcommitted
  · obtain ⟨entry, hentry, rfl⟩ := List.mem_map.mp hcreated
    obtain ⟨number, substate, hsome, -, rfl⟩ := mem_createdEntries_iff.mp hentry
    rw [h.2] at hsome
    cases hsome
  · obtain ⟨raw, hraw, rfl⟩ := List.mem_map.mp hcommitted
    have hnot := (List.mem_filter.mp hraw).2
    exact (of_decide_eq_true hnot) h

end Overlay

namespace Machine

variable [StateObject P] [ReducerState R] {machine : Machine P R} {ledger : Ledger P}

-- ================================================================ over a step

/-- A step that succeeds leaves what was gone gone. -/
theorem gone_of_step {position : Nat} {instruction : Instruction} {run after : Run P R}
    {source : ScanSource}
    (h : machine.step ledger position instruction run = (.ok (), after))
    (gone : run.overlay.Gone source) : after.overlay.Gone source :=
  overlay_of_step (I := fun overlay => overlay.Gone source) (fun _ gone => gone.create _ _ _)
    (fun other gone => gone.consume other) h gone

/-- A step that succeeds uses up whatever it consumes. -/
theorem gone_of_mem_consumes {position : Nat} {instruction : Instruction} {run after : Run P R}
    {source : ScanSource}
    (h : machine.step ledger position instruction run = (.ok (), after))
    (consumed : source ∈ machine.consumes ledger instruction run) :
    after.overlay.Gone source := by
  obtain ⟨updates, overlay, applies, hoverlay, -⟩ := applies_of_step h
  rw [hoverlay]
  cases applies with
  | down look =>
      rw [Overlay.without_eq_consume, List.mem_singleton.mp consumed]
      exact Overlay.gone_consume_self (Overlay.known_of_look look)
  | downIndex known =>
      rw [Overlay.consumeAll_eq_foldl]
      refine Overlay.gone_foldl_of_mem consumed ?_
      obtain ⟨entry, hentry, rfl⟩ := List.mem_map.mp consumed
      exact Overlay.known_of_mem_scan (offered_of_mem_pulls hentry)
  | _ => cases consumed

/-- A step on a reference that finds nothing, for want of consistency, fails
for that, also where the group only waited to be closed. -/
theorem step_of_look_error {position : Nat} {instruction : Instruction} {run : Run P R}
    {target : SubstateRef} {cause : ExecutionError}
    (hlook : run.overlay.look ledger target = .error cause)
    (hcategory : cause.category = .stateConsistency)
    (uses : instruction = .read target ∨ instruction = .down target) :
    ∃ cause after, machine.step ledger position instruction run = (.error cause, after)
      ∧ cause.category = .stateConsistency := by
  by_cases hclose : run.reduction.mustClose ∧ instruction ≠ .close
  · -- a step that is not looked at fails for the same class of reason
    refine ⟨.missingExpectedClose, run, ?_, rfl⟩
    unfold step
    rw [if_pos hclose]
  · refine ⟨cause, run, ?_, hcategory⟩
    unfold step
    rw [if_neg hclose]
    rcases uses with rfl | rfl
    · dsimp only
      rw [hlook]
    · have htake : run.overlay.take ledger target = .error cause := by
        rw [Overlay.take, hlook]
        rfl
      dsimp only
      rw [htake]

/-- A step on a reference to what is gone fails for want of consistency. -/
theorem step_of_gone {position : Nat} {instruction : Instruction} {run : Run P R}
    {target : SubstateRef} (gone : run.overlay.Gone target.source)
    (uses : instruction = .read target ∨ instruction = .down target) :
    ∃ cause after, machine.step ledger position instruction run = (.error cause, after)
      ∧ cause.category = .stateConsistency := by
  obtain ⟨cause, hlook, hcategory⟩ := Overlay.look_of_gone ledger gone
  exact step_of_look_error hlook hcategory uses

-- =============================================================== over a run

/-- No use after consumption. What an instruction consumed, each source
once, is used up for good: a later instruction that refers to it is what
the transaction is rejected for, for want of consistency, and no later scan
has it behind any of its offers. A scan consumed every substate that its
procedure was handed. Boot-up numbers do not wrap here, so this needs no
bound on the number of creations. -/
theorem consumed_never_used_again {store : CommittedStore} {ctx : Context}
    {instructions : List Instruction}
    (once : ∀ index, ((store.scan index).map RawSubstate.id).Nodup)
    {i j : Nat} {instruction : Instruction} {before after later : Run P R}
    (reached : machine.Reached store ctx instructions i before)
    (here : instructions[i]? = some instruction)
    (applied : machine.step ⟨store, machine.format⟩ i instruction before = (.ok (), after))
    (still : machine.Reached store ctx instructions j later) (hij : i < j) :
    (machine.consumes ⟨store, machine.format⟩ instruction before).Nodup
      ∧ (∀ index, instruction = .downIndex index → ∃ first rest,
          machine.HandsOver ⟨store, machine.format⟩
              (.scan ⟨store, machine.format⟩ .downIndex index before) first rest
            ∧ machine.consumes ⟨store, machine.format⟩ instruction before
              = (first.filterMap Except.toOption).map ScanEntry.source)
      ∧ ∀ source ∈ machine.consumes ⟨store, machine.format⟩ instruction before,
          (∀ target : SubstateRef, target.source = source →
            instructions[j]? = some (.read target) ∨ instructions[j]? = some (.down target) →
            ∃ state cause, (machine.verify store ctx instructions).outcome
                = .error ⟨j, state, cause⟩ ∧ cause.category = .stateConsistency)
          ∧ ∀ index, source ∉ later.overlay.scanSources ⟨store, machine.format⟩ index
              ∧ ∀ entry, .ok entry ∈ later.overlay.scan ⟨store, machine.format⟩ index →
                  entry.source ≠ source := by
  refine ⟨consumes_nodup once _ _, ?_, fun source consumed => ?_⟩
  · rintro index rfl
    obtain ⟨first, rest, hands, pulled⟩ :=
      machine.exists_handed_pulls ⟨store, machine.format⟩ index before
    exact ⟨first, rest, hands, congrArg (List.map ScanEntry.source) pulled⟩
  have gone : later.overlay.Gone source :=
    Reached.keeps (I := fun run => run.overlay.Gone source) gone_of_step
      (.step reached here applied) (gone_of_mem_consumes applied consumed) still hij
  refine ⟨?_, fun index => ⟨Overlay.not_mem_scanSources_of_gone gone, ?_⟩⟩
  · rintro target rfl uses
    obtain ⟨next, hnext, huses⟩ : ∃ next, instructions[j]? = some next
        ∧ (next = .read target ∨ next = .down target) := by
      -- reading and consuming look at the same place first
      rcases uses with h | h
      · exact ⟨_, h, .inl rfl⟩
      · exact ⟨_, h, .inr rfl⟩
    obtain ⟨cause, failed, hstep, hcategory⟩ := step_of_gone gone huses
    exact ⟨_, cause, verify_of_step_error still hnext hstep, hcategory⟩
  · intro entry hentry heq
    subst heq
    exact Overlay.not_mem_scanSources_of_gone gone (Overlay.source_mem_scanSources hentry)

end Machine

namespace Token

-- ======================================================== on the token ledger

/-- The token ledger by its base rules, free of charge. -/
def freeMachine : Machine Object Holding := ⟨Rule.table baseRules, format, .free⟩

def fiveTokens : Bytes := [2, 7, 0, 0, 0, 0, 0, 0, 0, 5]

def allTokens : SubstateIndex := ⟨[2], tokensTag⟩

/-- Committed state with one substate, five tokens. -/
def oneHolding : Snapshot := .ofLists [(.stored [1], fiveTokens)] [] [] []

/-- A transaction of the system. -/
def systemContext : Context := .fresh default .system 0

/-- Creates tokens, consumes all there are by a scan, and tries to spend the
committed ones once more. -/
def scanThenSpend : List Instruction :=
  [.up (.stored [5]) fiveTokens, .close, .downIndex allTokens, .down (.committed (.stored [1]))]

end Token

namespace Machine

open Token

/-- Tokens created here and tokens committed before, both handed to the
procedure of one scan and consumed with it: to spend the committed ones after
it is what the transaction is rejected for. -/
theorem scanned_tokens_not_spent_again :
    ∃ before, freeMachine.Reached oneHolding.toStore systemContext scanThenSpend 2 before
      ∧ freeMachine.consumes ⟨oneHolding.toStore, freeMachine.format⟩ (.downIndex allTokens) before
        = [.created 0, .committed (.stored [1])]
      ∧ (∃ first rest,
          freeMachine.HandsOver ⟨oneHolding.toStore, freeMachine.format⟩
            (.scan ⟨oneHolding.toStore, freeMachine.format⟩ .downIndex allTokens before) first rest
          ∧ first.map (·.map ScanEntry.object) = [.ok (.tokens 7 5), .ok (.tokens 7 5)])
      ∧ ∃ state cause,
          (freeMachine.verify oneHolding.toStore systemContext scanThenSpend).outcome
            = .error ⟨3, state, cause⟩ ∧ cause.category = .stateConsistency := by
  let start : Run Object Holding := ⟨.empty, .start, systemContext, .blank⟩
  let before := (freeMachine.steps ⟨oneHolding.toStore, freeMachine.format⟩ 0
    (scanThenSpend.take 2) start).2
  have walked : (freeMachine.steps ⟨oneHolding.toStore, freeMachine.format⟩ 0
      (scanThenSpend.take 2) start).1 = .ok () := by decide +kernel
  have stepped : (freeMachine.step ⟨oneHolding.toStore, freeMachine.format⟩ 2
      (.downIndex allTokens) before).1 = .ok () := by decide +kernel
  have consumed : freeMachine.consumes ⟨oneHolding.toStore, freeMachine.format⟩
      (.downIndex allTokens) before = [.created 0, .committed (.stored [1])] := by decide +kernel
  have reached : freeMachine.Reached oneHolding.toStore systemContext scanThenSpend 2 before :=
    reached_of_walk (by decide) rfl walked
  have applied : freeMachine.step ⟨oneHolding.toStore, freeMachine.format⟩ 2
      (.downIndex allTokens) before = (.ok (), _) := Prod.ext stepped rfl
  have handed : freeMachine.handed ⟨oneHolding.toStore, freeMachine.format⟩
      (.scan ⟨oneHolding.toStore, freeMachine.format⟩ .downIndex allTokens before)
      = [.ok (.tokens 7 5), .ok (.tokens 7 5)] := by decide +kernel
  obtain ⟨-, swept, never⟩ := consumed_never_used_again oneHolding.scan_ids_nodup reached rfl applied
    (.step reached rfl applied) (by decide)
  obtain ⟨rejected, -⟩ := never (.committed (.stored [1])) (by rw [consumed]; decide)
  obtain ⟨first, rest, hands, -⟩ := swept allTokens rfl
  exact ⟨before, reached, consumed, ⟨first, rest, hands, hands.handed.symm.trans handed⟩,
    rejected (.committed (.stored [1])) rfl (.inr rfl)⟩

end Machine

end LedgerCore
