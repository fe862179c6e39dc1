/-
Where groups are due to close. An instruction that hands a substate to its
procedure leaves an obligation when the procedure returns a void reducer
state: the next instruction has to be a close.

# The argument

The obligation is the `mustClose` of a run. It is as such an instruction
leaves it (`mustClose_of_step`), and the instruction behind it is a close or
fails (`eq_close_of_step`), so within a list it is met. At the end of a list
nothing looks at it. What is looked at is whether a group is open, and a
creation or consumption leaves one open, being on record. A read leaves no
record: as the last instruction of a list, in a group without records, it is
accepted with its obligation unmet.
-/
import LedgerCore.Proofs.Machine.Groups

namespace LedgerCore

/-- Whether an instruction hands a substate to its procedure. -/
def Instruction.HandlesSubstate : Instruction → Prop
  | .read _ | .up .. | .down _ => True
  | _ => False

namespace Machine

variable {P R : Type} [StateObject P] [ReducerState R]

/-- The procedure that an instruction calls returns that reducer state. -/
def Returns (machine : Machine P R) (ledger : Ledger P) (position : Nat)
    (instruction : Instruction) (run : Run P R) (state : Option R) : Prop :=
  ∃ call pulled left, Calls ledger position run instruction call
    ∧ machine.perform ledger call = (.ok pulled, left) ∧ left.reduction.state = state

variable {machine : Machine P R} {ledger : Ledger P} {position : Nat}
  {instruction : Instruction} {run after : Run P R}

-- ====================================================================== steps

omit [ReducerState R] in
/-- An instruction makes one call. -/
theorem Calls.unique {call call' : Call P R} (made : Calls ledger position run instruction call)
    (made' : Calls ledger position run instruction call') : call = call' := by
  cases made with
  | syscall data =>
      cases made'
      rfl
  | read look =>
      cases made' with
      | read look' =>
          cases look.symm.trans look'
          rfl
  | readIndex index =>
      cases made'
      rfl
  | downIndex index =>
      cases made'
      rfl
  | up decoded =>
      cases made' with
      | up decoded' =>
          cases decoded.symm.trans decoded'
          rfl
  | down taken =>
      cases made' with
      | down taken' =>
          cases taken.symm.trans taken'
          rfl
  | close held =>
      cases made'
      rfl

/-- To hand over one object is a call, and then the close is asked for. -/
theorem reduceObject_calls {op : Op} {object : P}
    (h : machine.reduceObject ledger op object run = (.ok (), after)) :
    ∃ pulled left, machine.perform ledger (.object op object run) = (.ok pulled, left)
      ∧ after = { left with reduction := left.reduction.expectClose } := by
  unfold reduceObject at h
  split at h
  · cases h
  · next pulled left performed =>
      cases h
      exact ⟨pulled, left, performed, rfl⟩

/-- A substate is handed to a procedure, and what that returns decides
whether a close is due. -/
theorem calls_of_step (handles : instruction.HandlesSubstate)
    (h : machine.step ledger position instruction run = (.ok (), after)) :
    ∃ call pulled left, Calls ledger position run instruction call
      ∧ machine.perform ledger call = (.ok pulled, left)
      ∧ after = { left with reduction := left.reduction.expectClose } := by
  unfold step at h
  split at h
  · cases h
  · cases instruction with
    | read target =>
        dsimp only at h
        split at h
        · cases h
        · next found look =>
            obtain ⟨pulled, left, performed, rfl⟩ := reduceObject_calls h
            exact ⟨_, pulled, left, .read look, performed, rfl⟩
    | up id encoding =>
        dsimp only at h
        split at h
        · cases h
        · next object decoded =>
            obtain ⟨pulled, left, performed, rfl⟩ := reduceObject_calls h
            exact ⟨_, pulled, left, .up decoded, performed, rfl⟩
    | down target =>
        dsimp only at h
        split at h
        · cases h
        · next found overlay taken =>
            obtain ⟨pulled, left, performed, rfl⟩ := reduceObject_calls h
            exact ⟨_, pulled, left, .down taken, performed, rfl⟩
    | _ => cases handles

/-- A void result makes a close due. -/
theorem mustClose_of_step (handles : instruction.HandlesSubstate)
    (returned : machine.Returns ledger position instruction run none)
    (h : machine.step ledger position instruction run = (.ok (), after)) :
    after.reduction.mustClose = true := by
  obtain ⟨call, pulled, left, made, performed, rfl⟩ := calls_of_step handles h
  obtain ⟨call', pulled', left', made', performed', void⟩ := returned
  cases made.unique made'
  cases performed.symm.trans performed'
  exact congrArg Option.isNone void

/-- Where a close is due, nothing else succeeds. -/
theorem eq_close_of_step (due : run.reduction.mustClose = true)
    (h : machine.step ledger position instruction run = (.ok (), after)) : instruction = .close := by
  by_contra goesOn
  unfold step at h
  rw [if_pos ⟨due, goesOn⟩] at h
  cases h

-- ================================================================ transactions

variable {store : CommittedStore} {ctx : Context} {instructions : List Instruction}

/-- In a verified transaction, a read, creation or consumption whose
procedure returns a void reducer state has a close right behind it, unless it
is a read that ends the list, with nothing on record since the last close. -/
theorem void_result_closes {groups : List (List (StateUpdate P))}
    (accepted : (machine.verify store ctx instructions).outcome = .ok groups)
    (here : instructions[position]? = some instruction) (handles : instruction.HandlesSubstate)
    (reached : machine.Reached store ctx instructions position run)
    (returned : machine.Returns ⟨store, machine.format⟩ position instruction run none) :
    instructions[position + 1]? = some .close
      ∨ ((∃ target, instruction = .read target) ∧ position + 1 = instructions.length
          ∧ run.reduction.group = []) := by
  obtain ⟨final, ended, closed, -⟩ := reached_of_verify_ok accepted
  obtain ⟨hlt, -⟩ := List.getElem?_eq_some_iff.mp here
  obtain ⟨_, _, after, here', reached', applied, next⟩ := ended.before hlt
  cases here.symm.trans here'
  cases reached.unique reached'
  have due := mustClose_of_step handles returned applied
  rcases Nat.lt_or_ge (position + 1) instructions.length with more | least
  · left
    obtain ⟨behind, _, _, there, next', applied', -⟩ := ended.before more
    cases next.unique next'
    rw [there, eq_close_of_step due applied']
  · right
    have last : position + 1 = instructions.length := Nat.le_antisymm hlt least
    rw [last] at next
    rw [ended.unique next] at closed
    have left : after.reduction.group = [] := (Reduction.isOpen_eq_false_iff.mp closed).2
    obtain ⟨updates, overlay, applies, -, recorded⟩ := applies_of_step applied
    have goesOn : instruction ≠ .close := by
      rintro rfl
      cases handles
    rw [group_of_step goesOn applied recorded, List.append_eq_nil_iff] at left
    obtain ⟨before, none⟩ := left
    refine ⟨?_, last, before⟩
    -- a creation or consumption would be on record
    cases applies with
    | read look => exact ⟨_, rfl⟩
    | up decoded => cases none
    | down look => cases none
    | _ => cases handles

end Machine

namespace Token

/-- Reads the committed tokens, which returns a void state. -/
def lookAtTokens : Instruction := .read (.committed (.stored [1]))

/-- The run that a transaction starts with where nothing is charged. -/
def untouched : Run Object Holding := ⟨.empty, .start, userContext, .blank⟩

theorem untouched_reached (instructions : List Instruction) :
    freeMachine.Reached oneHolding.toStore userContext instructions 0 untouched :=
  .start rfl

/-- The rule for looking at tokens leaves no state behind. -/
theorem lookAtTokens_returns_void :
    freeMachine.Returns ⟨oneHolding.toStore, freeMachine.format⟩ 0 lookAtTokens untouched none := by
  let ledger : Ledger Object := ⟨oneHolding.toStore, freeMachine.format⟩
  let found : Found Object := ⟨.stored [1], .tokens 7 5, some fiveTokens⟩
  let call : Machine.Call Object Holding := .object .read found.object untouched
  have look : untouched.overlay.look ledger (.committed (.stored [1])) = .ok found := by
    decide +kernel
  have returned : (freeMachine.perform ledger call).1 = .ok [] := by decide +kernel
  have void : (freeMachine.perform ledger call).2.reduction.state = none := by decide +kernel
  exact ⟨call, [], _, .read look, Prod.ext returned rfl, void⟩

end Token

namespace Machine

open Token

/-- A look at the tokens is closed where something follows it. -/
theorem look_closes :
    (∃ groups, (freeMachine.verify oneHolding.toStore userContext
        [lookAtTokens, .close]).outcome = .ok groups)
      ∧ lookAtTokens.HandlesSubstate
      ∧ ([lookAtTokens, .close][0 + 1]? = some .close
        ∨ ((∃ target, lookAtTokens = .read target) ∧ 0 + 1 = [lookAtTokens, .close].length
          ∧ untouched.reduction.group = [])) := by
  have accepted : (freeMachine.verify oneHolding.toStore userContext
      [lookAtTokens, .close]).outcome = .ok [[]] := by
    decide +kernel
  exact ⟨⟨_, accepted⟩, trivial, void_result_closes accepted rfl trivial (untouched_reached _)
    lookAtTokens_returns_void⟩

/-- At the end of a list, it is not. -/
theorem look_left_unclosed :
    ¬ ∀ (machine : Machine Object Holding) (store : CommittedStore) (ctx : Context)
        (instructions : List Instruction) (groups : List (List (StateUpdate Object)))
        (position : Nat) (instruction : Instruction) (run : Run Object Holding),
        (machine.verify store ctx instructions).outcome = .ok groups →
        instructions[position]? = some instruction → instruction.HandlesSubstate →
        machine.Reached store ctx instructions position run →
        machine.Returns ⟨store, machine.format⟩ position instruction run none →
        instructions[position + 1]? = some .close := by
  intro closes
  have accepted : (freeMachine.verify oneHolding.toStore userContext
      [lookAtTokens]).outcome = .ok [] := by
    decide +kernel
  have closed := closes freeMachine oneHolding.toStore userContext [lookAtTokens] [] 0 lookAtTokens
    untouched accepted rfl trivial (untouched_reached _) lookAtTokens_returns_void
  cases closed

end Machine

end LedgerCore
