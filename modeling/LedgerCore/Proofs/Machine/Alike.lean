/-
Machines that act alike. Two machines read a ledger in the same way if they
have the same format; what else sets them apart, rules and meter, has a say
in calls and in signatures only (`step_eq`). So if these two go alike in
every context a run can come to, the machines give the same verdict on
every transaction.

The contexts in question are given as a property that one of the machines
keeps; which one it is depends on what is compared.
-/
import LedgerCore.Proofs.Machine.Call

namespace LedgerCore.Machine

variable {P R : Type} [StateObject P] [ReducerState R]

/-- In contexts with a property, which steps keep, two machines make calls
and count signatures alike. -/
structure AlikeIn (machine other : Machine P R) (ledger : Ledger P) (I : Context → Prop) :
    Prop where
  perform : ∀ call, I call.run.ctx → other.perform ledger call = machine.perform ledger call
  countSig : ∀ run, I run.ctx → other.countSig run = machine.countSig run
  kept : ∀ position instruction run, I run.ctx →
    I (machine.step ledger position instruction run).2.ctx

namespace AlikeIn

variable {machine other : Machine P R} {ledger : Ledger P} {I : Context → Prop}

/-- Of two machines that act alike, each step is the same. -/
theorem step_eq (alike : machine.AlikeIn other ledger I) {run : Run P R} (h : I run.ctx)
    (position : Nat) (instruction : Instruction) :
    other.step ledger position instruction run = machine.step ledger position instruction run := by
  rw [Machine.step_eq, Machine.step_eq]
  have demanded := demands ledger position instruction run
  generalize demand ledger position instruction run = demand at demanded ⊢
  cases demanded with
  | fails instruction cause => rfl
  | closes void => rfl
  | passes instruction => rfl
  | signs => exact alike.countSig run h
  | calls made =>
      dsimp only [answer]
      rw [alike.perform _ (made.ctx ▸ h)]

/-- So are any number of steps, as each leaves a context of the same kind. -/
theorem steps_eq (alike : machine.AlikeIn other ledger I) (instructions : List Instruction) :
    ∀ {run : Run P R} (position : Nat), I run.ctx →
      other.steps ledger position instructions run
        = machine.steps ledger position instructions run := by
  induction instructions with
  | nil => exact fun _ _ => rfl
  | cons instruction rest ih =>
      intro run position h
      rw [steps, steps, alike.step_eq h]
      split
      · rfl
      · next after applied =>
          have kept := alike.kept position instruction run h
          rw [applied] at kept
          exact ih (position + 1) kept

/-- Machines with the same format and the same start give the same verdict if
they are alike from there on. -/
theorem verify_eq {store : CommittedStore} {ctx : Context}
    (alike : machine.AlikeIn other ⟨store, machine.format⟩ I)
    (format : other.format = machine.format)
    (start : other.meter.onStart.run ctx .blank = machine.meter.onStart.run ctx .blank)
    (begun : I (machine.meter.onStart.run ctx .blank).2.1) (instructions : List Instruction) :
    other.verify store ctx instructions = machine.verify store ctx instructions := by
  unfold verify
  dsimp only
  rw [start, format]
  split
  · rfl
  · next begun_ctx journal hook =>
      rw [hook] at begun
      rw [alike.steps_eq instructions 0 begun]

end AlikeIn

end LedgerCore.Machine
