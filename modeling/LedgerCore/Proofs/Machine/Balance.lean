/-
What goes in comes out. Objects and reducer states are given a worth; a
table of rules conserves it if every call a context permits leaves in the
reducer state what was there before, plus the worth it consumed, less the
worth it created. In every group of a verified transaction the creations
are then worth as much as the consumptions.

# The invariant

`Reduction.Balanced`: of the current group, what the reducer state holds
and what was created together are worth what was consumed. A group closes
only with no reducer state, which holds nothing. What a consuming scan
pulled is on record only after its procedure has returned, so the step
lemma (`balanced_of_step`) compares the run before a step with the run
after it, not with the one the procedure was called on.
-/
import LedgerCore.Proofs.Machine.Privilege
import LedgerCore.Proofs.Machine.Record

namespace LedgerCore

variable {P R : Type}

-- ====================================================================== worth

/-- The sum of an amount over some objects. -/
def sumOver (amount : P → Nat) : List P → Nat
  | [] => 0
  | object :: rest => amount object + sumOver amount rest

@[simp] theorem sumOver_nil (amount : P → Nat) : sumOver amount [] = 0 := rfl

@[simp] theorem sumOver_cons (amount : P → Nat) (object : P) (rest : List P) :
    sumOver amount (object :: rest) = amount object + sumOver amount rest := rfl

/-- A sum over two lists one behind the other. -/
@[simp] theorem sumOver_append (amount : P → Nat) (first second : List P) :
    sumOver amount (first ++ second) = sumOver amount first + sumOver amount second := by
  induction first with
  | nil => exact (Nat.zero_add _).symm
  | cons object rest ih =>
      rw [List.cons_append, sumOver_cons, sumOver_cons, ih]
      omega

/-- What objects and reducer states are worth. -/
structure Worth (P R : Type) where
  object : P → Nat
  state : R → Nat

namespace Worth

variable (worth : Worth P R)

/-- What the reducer state holds; none holds nothing. -/
def held : Option R → Nat
  | none => 0
  | some state => worth.state state

/-- What a call creates, from its operation and its input. -/
def created (op : Op) : Input P → Nat
  | .substate object => if op = .up then worth.object object else 0
  | _ => 0

/-- What a call consumes, given the worth of what it pulled from its scan. -/
def consumed (op : Op) (pulled : Nat) : Input P → Nat
  | .substate object => if op = .down then worth.object object else 0
  | .index _ => if op = .downIndex then pulled else 0
  | _ => 0

end Worth

/-- The inputs a procedure under a signature is called on. -/
def OpSignature.Takes [StateObject P] (signature : OpSignature) : Input P → Prop
  | .call _ => signature = .syscall
  | .substate object =>
      signature.target = some (StateObject.tag object)
        ∧ (signature.op = .up ∨ signature.op = .down ∨ signature.op = .read)
  | .index selection =>
      signature.target = some selection.tag
        ∧ (signature.op = .downIndex ∨ signature.op = .readIndex)
  | .close => signature = .close

/-- The rules conserve worth in every call the context permits. -/
def Procedures.Conserve [StateObject P] [ReducerState R] (worth : Worth P R) (ctx : Context)
    (procedures : Procedures P R) : Prop :=
  ∀ {signature : OpSignature} {procedure : Procedure P R} {input : Input P} {state next : Option R}
    {resource : ResourceAddr → Except ExecutionError ResourceDefinition}
    {start final : BodyState P},
    procedures.get ⟨reducerKind state, signature⟩ = .ok procedure →
    signature.Takes input → ctx.Permits (procedure.requiredLevel input) → start.pulled = [] →
    (procedure.body input state).run resource start = (.ok next, final) →
    worth.held next + worth.created signature.op input
      = worth.held state
        + worth.consumed signature.op (sumOver worth.object (final.pulled.map ScanEntry.object))
            input

-- ================================================================== the groups

namespace StateUpdate

/-- The worth of what some records created. -/
def born (worth : Worth P R) (updates : List (StateUpdate P)) : Nat :=
  sumOver worth.object ((births updates).map StateUpdate.object)

/-- The worth of what some records consumed. -/
def spent (worth : Worth P R) (updates : List (StateUpdate P)) : Nat :=
  sumOver worth.object ((removals updates).map StateUpdate.object)

variable (worth : Worth P R)

theorem born_append (first second : List (StateUpdate P)) :
    born worth (first ++ second) = born worth first + born worth second := by
  simp [born]

theorem spent_append (first second : List (StateUpdate P)) :
    spent worth (first ++ second) = spent worth first + spent worth second := by
  simp [spent]

/-- A scan creates nothing. -/
theorem born_pulls [StateObject P] (position : Nat) (entries : List (ScanEntry P)) :
    born worth (entries.map (.ofPull position)) = 0 := by
  rw [born, births_pulls]
  rfl

/-- A consuming scan consumes what its entries are worth. -/
theorem spent_pulls [StateObject P] (position : Nat) (entries : List (ScanEntry P)) :
    spent worth (entries.map (.ofPull position))
      = sumOver worth.object (entries.map ScanEntry.object) := by
  rw [spent, removals_pulls, List.map_map]
  rfl

end StateUpdate

open StateUpdate hiding id

/-- The closed groups are balanced, and the current one will be once the
reducer state is spent. -/
structure Reduction.Balanced (worth : Worth P R) (reduction : Reduction P R) : Prop where
  current : worth.held reduction.state + born worth reduction.group = spent worth reduction.group
  closed : ∀ group ∈ reduction.groups, spent worth group = born worth group

namespace Reduction.Balanced

variable {worth : Worth P R} {reduction : Reduction P R}

theorem start : (Reduction.start : Reduction P R).Balanced worth := ⟨rfl, nofun⟩

/-- A group that is closed with no state left is balanced. -/
theorem closeGroup (h : reduction.Balanced worth) (void : reduction.state = none) :
    reduction.closeGroup.Balanced worth := by
  have current := h.current
  rw [void] at current
  refine ⟨by rw [Reduction.closeGroup, void]; rfl, fun group hgroup => ?_⟩
  rcases List.mem_append.mp hgroup with hclosed | hlast
  · exact h.closed group hclosed
  · obtain rfl := List.mem_singleton.mp hlast
    rw [← current]
    exact Nat.zero_add _

/-- The reducer state moves by what is recorded with it. -/
theorem move (h : reduction.Balanced worth) {next : Option R} (updates : List (StateUpdate P))
    (account : worth.held next + born worth updates
      = worth.held reduction.state + spent worth updates) :
    ({ reduction with state := next }.record updates).Balanced worth := by
  have current := h.current
  refine ⟨?_, h.closed⟩
  simp only [Reduction.record, born_append, spent_append]
  omega

/-- Where nothing is recorded, the state must hold what it held. -/
theorem move_nil (h : reduction.Balanced worth) {next : Option R}
    (account : worth.held next = worth.held reduction.state) :
    { reduction with state := next }.Balanced worth :=
  ⟨account ▸ h.current, h.closed⟩

theorem expectClose (h : reduction.Balanced worth) : reduction.expectClose.Balanced worth :=
  ⟨h.current, h.closed⟩

end Reduction.Balanced

namespace Machine

variable [StateObject P] [ReducerState R] {machine : Machine P R} {ledger : Ledger P}
  {worth : Worth P R} {start : Context}

omit [ReducerState R] in
/-- A call's input is one that its operation takes. -/
theorem Calls.takes {position : Nat} {run : Run P R} {instruction : Instruction} {call : Call P R}
    (made : Calls ledger position run instruction call) : call.op.Takes call.input := by
  cases made with
  | syscall data => exact rfl
  | close held => exact rfl
  | read look => exact ⟨rfl, .inr (.inr rfl)⟩
  | up decoded => exact ⟨rfl, .inl rfl⟩
  | down taken => exact ⟨rfl, .inr (.inl rfl)⟩
  | readIndex index => exact ⟨rfl, .inr rfl⟩
  | downIndex index => exact ⟨rfl, .inl rfl⟩

/-- A step keeps the groups balanced. -/
theorem balanced_of_step (conserve : machine.procedures.Conserve worth start) {position : Nat}
    {instruction : Instruction} {run after : Run P R} (within : run.ctx.Within start)
    (h : machine.step ledger position instruction run = (.ok (), after))
    (balanced : run.reduction.Balanced worth) : after.reduction.Balanced worth := by
  have succeeds := step_ok h
  generalize demand ledger position instruction run = demanded at succeeds
  cases succeeds with
  | closes void => exact balanced.closeGroup void
  | passes instruction => exact balanced
  | signs counted =>
      rw [(countSig_ok counted).2]
      exact balanced
  | calls made performed concluded =>
      obtain ⟨procedure, found, permitted, ctx, journal, next, final, ran, rfl, -, hreduction⟩ :=
        perform_ok performed
      have permits := within.permits (made.ctx ▸ Context.checkPermission_ok_iff.mp permitted)
      -- the rule accounts for what it is called on, wherever that is recorded
      have account := conserve found made.takes permits rfl ran
      cases made with
      | syscall data =>
          cases concluded
          rw [hreduction]
          exact balanced.move_nil account
      | read look =>
          cases concluded
          rw [hreduction]
          exact (balanced.move_nil account).expectClose
      | readIndex index =>
          cases concluded
          rw [hreduction]
          exact balanced.move_nil account
      | downIndex index =>
          -- recorded after the call
          cases concluded
          rw [hreduction]
          refine balanced.move _ ?_
          rw [born_pulls, spent_pulls]
          exact account
      | up decoded =>
          -- recorded before it, as the consumption of one substate is
          cases concluded
          rw [hreduction]
          exact (balanced.move [.ofUp position _ _ _] account).expectClose
      | down taken =>
          cases concluded
          rw [hreduction]
          exact (balanced.move [.ofDown position _] account).expectClose
      | close held =>
          dsimp only [conclude] at concluded
          split at concluded
          · cases concluded
          · next hvoid =>
              cases concluded
              have moved := balanced.move_nil account
              rw [hreduction] at hvoid ⊢
              exact moved.closeGroup (Option.not_isSome_iff_eq_none.mp hvoid)

/-- Along a run the groups stay balanced. -/
theorem Reached.balanced {store : CommittedStore} {ctx : Context} {instructions : List Instruction}
    (conserve : machine.procedures.Conserve worth ctx) {position : Nat} {run : Run P R}
    (reached : machine.Reached store ctx instructions position run) :
    run.reduction.Balanced worth := by
  induction reached with
  | start hook => exact .start
  | step reached here applied ih =>
      have within := reached.keeps_ctx (Context.within_kept ctx) (.refl ctx)
      exact balanced_of_step conserve within applied ih

/-- Under rules that conserve worth, the consumptions of every group of a
verified transaction are worth what its creations are. -/
theorem groups_balanced (worth : Worth P R) {store : CommittedStore} {ctx : Context}
    {instructions : List Instruction}
    (conserve : machine.procedures.Conserve worth ctx) {groups : List (List (StateUpdate P))}
    (accepted : (machine.verify store ctx instructions).outcome = .ok groups) :
    ∀ group ∈ groups, spent worth group = born worth group := by
  obtain ⟨run, reached, -, rfl⟩ := reached_of_verify_ok accepted
  exact (reached.balanced conserve).closed

end Machine

end LedgerCore
