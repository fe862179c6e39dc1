/-
What a rejection says of the reducer state. A step that fails may have
charged the context, noted things in the journal, and put its substate into
the overlay; the reducer state it leaves as it found it, with one exception.

# The exception

A close whose procedure returns a state instead of none (`ClosesWith`) fails
after the call, and by then the returned state is in place. It is this state
that such a rejection reports, not the one before the close
(`step_of_closesWith`). Every other failure comes before a procedure or out
of one, and a reducer state is replaced by what a procedure returns only
(`state_of_step_error`).
-/
import LedgerCore.Proofs.Machine.Closing

namespace LedgerCore

namespace Machine

variable {P R : Type} [StateObject P] [ReducerState R]

/-- The instruction is a close whose procedure returns that state, where it
should return none. -/
def ClosesWith (machine : Machine P R) (ledger : Ledger P) (position : Nat)
    (instruction : Instruction) (run : Run P R) (held : R) : Prop :=
  instruction = .close ∧ machine.Returns ledger position instruction run (some held)

variable {machine : Machine P R} {ledger : Ledger P} {position : Nat}
  {instruction : Instruction} {run after : Run P R} {cause : ExecutionError}

-- =============================================================== failing steps

omit [StateObject P] [ReducerState R] in
/-- A signature marker is no matter of the reduction. -/
theorem countSig_reduction (machine : Machine P R) (run : Run P R) :
    (machine.countSig run).2.reduction = run.reduction := by
  unfold countSig
  split
  · rfl
  · split
    · rfl
    · rfl

/-- A call that succeeds fails its step only if it is a close that returns a
state. -/
theorem closesWith_of_conclude {call : Call P R} {pulled : List (ScanEntry P)} {left : Run P R}
    (made : Calls ledger position run instruction call)
    (performed : machine.perform ledger call = (.ok pulled, left))
    (h : conclude position instruction (reducerKind call.run.reduction.state) pulled left
      = (.error cause, after)) :
    ∃ held, machine.ClosesWith ledger position instruction run held
      ∧ cause = .unclosedGroup (reducerKind run.reduction.state)
      ∧ after.reduction.state = some held := by
  cases instruction with
  | close =>
      simp only [conclude] at h
      split at h
      · next isSome =>
          obtain ⟨held, returned⟩ := Option.isSome_iff_exists.mp isSome
          cases h
          refine ⟨held, ⟨rfl, call, pulled, after, made, performed, returned⟩, ?_, returned⟩
          rw [made.state]
      · cases h
  | _ => cases h

/-- A step that fails leaves the reducer state as it was, or else it is a
close that returned a state, and has left that. -/
theorem state_of_step_error
    (h : machine.step ledger position instruction run = (.error cause, after)) :
    after.reduction.state = run.reduction.state
      ∨ ∃ held, machine.ClosesWith ledger position instruction run held
          ∧ cause = .unclosedGroup (reducerKind run.reduction.state)
          ∧ after.reduction.state = some held := by
  rw [step_eq] at h
  have demanded := demands ledger position instruction run
  generalize LedgerCore.Machine.demand ledger position instruction run = demand at demanded h
  cases demanded with
  | fails instruction cause =>
      cases h
      exact .inl rfl
  | closes void => cases h
  | passes instruction => cases h
  | signs =>
      left
      have kept := machine.countSig_reduction run
      rw [show machine.countSig run = (.error cause, after) from h] at kept
      rw [kept]
  | calls made =>
      dsimp only [answer] at h
      split at h
      · next performed =>
          cases h
          left
          rw [(reduce_error performed).2, made.state]
      · -- the procedure returned, so it is the close that fails
        next performed => exact .inr (closesWith_of_conclude made performed h)

/-- A close that returns a state fails, and leaves it. -/
theorem step_of_closesWith {held : R}
    (returned : machine.ClosesWith ledger position instruction run held) :
    ∃ after, machine.step ledger position instruction run
        = (.error (.unclosedGroup (reducerKind run.reduction.state)), after)
      ∧ after.reduction.state = some held := by
  obtain ⟨rfl, call, pulled, left, made, performed, state⟩ := returned
  refine ⟨left, ?_, state⟩
  cases made with
  | close isSome =>
      have demanded : demand ledger position .close run
          = .calls ⟨.close, .close, [], run⟩ := by
        obtain ⟨before, holds⟩ := Option.isSome_iff_exists.mp isSome
        simp [demand, holds]
      rw [step_eq, demanded]
      simp [answer, performed, conclude, state]

-- ================================================================ transactions

variable {store : CommittedStore} {ctx : Context} {instructions : List Instruction}

/-- A walk that fails does not come to its end. -/
theorem not_reached_end {begun : Context} {journal : Journal} {failure : Nat × ExecutionError}
    (hook : machine.meter.onStart.run ctx .blank = (.ok (), begun, journal))
    (failed : (machine.steps ⟨store, machine.format⟩ 0 instructions
      ⟨.empty, .start, begun, journal⟩).1 = .error failure) (run : Run P R) :
    ¬ machine.Reached store ctx instructions instructions.length run := by
  intro reached
  obtain ⟨begun', journal', hook', walked⟩ := (reached_iff Nat.le.refl).mp reached
  cases hook.symm.trans hook'
  rw [List.take_length] at walked
  rw [walked] at failed
  cases failed

/-- A transaction that begins and is rejected before its end is rejected for
an instruction before which all were applied. The reducer state reported is
the one these left, unless the instruction is a close whose procedure
returned a state: then it is the state returned. -/
theorem rejection_reports_state {rejection : Rejection R}
    (rejected : (machine.verify store ctx instructions).outcome = .error rejection)
    (begun : (machine.meter.onStart.run ctx .blank).1 = .ok ())
    (unfinished : ∀ run, ¬ machine.Reached store ctx instructions instructions.length run) :
    ∃ instruction run, instructions[rejection.index]? = some instruction
      ∧ machine.Reached store ctx instructions rejection.index run
      ∧ (machine.step ⟨store, machine.format⟩ rejection.index instruction run).1
          = .error rejection.cause
      ∧ ((∀ held, ¬ machine.ClosesWith ⟨store, machine.format⟩ rejection.index instruction run
            held) → rejection.state = run.reduction.state)
      ∧ ∀ held, machine.ClosesWith ⟨store, machine.format⟩ rejection.index instruction run held →
          rejection.cause = .unclosedGroup (reducerKind run.reduction.state)
            ∧ rejection.state = some held := by
  have ends := machine.ends_verify store ctx instructions
  generalize machine.verify store ctx instructions = verdict at ends rejected
  cases ends with
  | unbegun hook =>
      rw [hook] at begun
      cases begun
  | opened reached isOpen => exact absurd reached (unfinished _)
  | unsettled reached closed settle => exact absurd reached (unfinished _)
  | settled reached closed settle => cases rejected
  -- the run is unfinished, so an instruction failed
  | @fails position instruction run after cause reached here failed =>
      cases rejected
      refine ⟨instruction, run, here, reached, by rw [failed], ?_, ?_⟩
      · intro closes
        rcases state_of_step_error failed with kept | ⟨held, returned, -⟩
        · exact kept
        · exact absurd returned (closes held)
      · intro held returned
        obtain ⟨left, stepped, state⟩ := step_of_closesWith returned
        cases stepped.symm.trans failed
        exact ⟨rfl, state⟩

end Machine

namespace Token

/-- Spends five tokens on six. -/
def overspend : List Instruction :=
  [.down (.committed (.stored [1])), .up (.stored [2]) [2, 7, 0, 0, 0, 0, 0, 0, 0, 6]]

/-- Spends five tokens on nothing and closes. -/
def leaveUnspent : List Instruction := [.down (.committed (.stored [1])), .close]

/-- Closes a transfer by what it returns, a count of nine. -/
def countedClose : Rule := anyone transfer .close [.set ⟨counted, 9⟩]

/-- The token ledger with another rule for the end of a transfer. -/
def countingMachine : Machine Object Holding :=
  ⟨Rule.table (baseRules ++ [countedClose]), format, .free⟩

end Token

namespace Machine

open Token

/-- An overspent transfer is reported as it was before the creation that
overspends it. -/
theorem overspending_reports_transfer :
    ∃ rejection run,
      (freeMachine.verify oneHolding.toStore userContext overspend).outcome = .error rejection
        ∧ rejection.index = 1
        ∧ freeMachine.Reached oneHolding.toStore userContext overspend 1 run
        ∧ rejection.state = run.reduction.state ∧ rejection.state = some ⟨transfer, 5⟩ := by
  have rejected : (freeMachine.verify oneHolding.toStore userContext overspend).outcome
      = .error ⟨1, some ⟨transfer, 5⟩, .procedure "transfer overspends input"⟩ := by
    decide +kernel
  have failed : (freeMachine.steps ⟨oneHolding.toStore, freeMachine.format⟩ 0 overspend
      untouched).1 = .error (1, .procedure "transfer overspends input") := by
    decide +kernel
  obtain ⟨instruction, run, here, reached, -, state, -⟩ :=
    rejection_reports_state rejected rfl (not_reached_end rfl failed)
  refine ⟨_, run, rejected, rfl, reached, state ?_, rfl⟩
  rintro held ⟨rfl, -⟩
  cases here

/-- A close that returns a state is reported with that state, and not with
the one before it. -/
theorem returned_state_reported :
    ¬ ∀ (machine : Machine Object Holding) (store : CommittedStore) (ctx : Context)
        (instructions : List Instruction) (rejection : Rejection Holding)
        (run : Run Object Holding),
        (machine.verify store ctx instructions).outcome = .error rejection →
        (machine.meter.onStart.run ctx .blank).1 = .ok () →
        (∀ run, ¬ machine.Reached store ctx instructions instructions.length run) →
        machine.Reached store ctx instructions rejection.index run →
        rejection.state = run.reduction.state := by
  intro before
  let ledger : Ledger Object := ⟨oneHolding.toStore, countingMachine.format⟩
  let spent := countingMachine.steps ledger 0 (leaveUnspent.take 1) untouched
  have rejected : (countingMachine.verify oneHolding.toStore userContext leaveUnspent).outcome
      = .error ⟨1, some ⟨counted, 9⟩, .unclosedGroup transfer⟩ := by
    decide +kernel
  have failed : (countingMachine.steps ledger 0 leaveUnspent untouched).1
      = .error (1, .unclosedGroup transfer) := by
    decide +kernel
  have walked : spent.1 = .ok () := by decide +kernel
  have left : spent.2.reduction.state = some ⟨transfer, 5⟩ := by decide +kernel
  have reached : countingMachine.Reached oneHolding.toStore userContext leaveUnspent 1 spent.2 :=
    reached_of_walk (by decide) rfl walked
  have same := before countingMachine _ _ _ _ _ rejected rfl (not_reached_end rfl failed) reached
  rw [left] at same
  exact absurd same (by decide)

end Machine

end LedgerCore
