/-
Runs of the machine, position by position. `Reached` says which run stands
before the instruction at a position when everything before it succeeded;
it is what invariants are proved on, by induction on its two constructors.

`verify` is tied to it in both directions. Whatever `verify` answers, it
answers for one of five reasons (`Ends`), of which one makes a verdict of
acceptance: the run has reached its end with no group left open, and its
books settle (`settled_of_verify_ok`). Conversely, an instruction that fails
where a run has reached it is what `verify` reports, at that position and
with that cause (`verify_of_step_error`).
-/
import LedgerCore.Proofs.Machine.Step

namespace LedgerCore.Machine

variable {P R : Type} [StateObject P] [ReducerState R]

/-- The run before the instruction at a position, every instruction before
it having succeeded. -/
inductive Reached (machine : Machine P R) (store : CommittedStore) (ctx : Context)
    (instructions : List Instruction) : Nat → Run P R → Prop
  | start {begun : Context} {journal : Journal}
      (hook : machine.meter.onStart.run ctx .blank = (.ok (), begun, journal)) :
      Reached machine store ctx instructions 0 ⟨.empty, .start, begun, journal⟩
  | step {position : Nat} {instruction : Instruction} {run after : Run P R}
      (reached : Reached machine store ctx instructions position run)
      (here : instructions[position]? = some instruction)
      (applied : machine.step ⟨store, machine.format⟩ position instruction run
        = (.ok (), after)) :
      Reached machine store ctx instructions (position + 1) after

variable {machine : Machine P R} {store : CommittedStore} {ctx : Context}
  {instructions : List Instruction}

namespace Reached

-- ================================================================ one path

/-- There is one way to a position, so one run. -/
theorem unique {position : Nat} {run other : Run P R}
    (h : machine.Reached store ctx instructions position run)
    (h' : machine.Reached store ctx instructions position other) : run = other := by
  induction h generalizing other with
  | start hook =>
      cases h' with
      | start hook' =>
          rw [hook] at hook'
          cases hook'
          rfl
  | step reached here applied ih =>
      cases h' with
      | step reached' here' applied' =>
          cases ih reached'
          rw [here] at here'
          cases here'
          rw [applied] at applied'
          cases applied'
          rfl

/-- What every successful step keeps holds from a position on. -/
theorem keeps {I : Run P R → Prop}
    (kept : ∀ {position : Nat} {instruction : Instruction} {run after : Run P R},
      machine.step ⟨store, machine.format⟩ position instruction run = (.ok (), after) →
      I run → I after)
    {i j : Nat} {run later : Run P R}
    (h : machine.Reached store ctx instructions i run) (hI : I run)
    (h' : machine.Reached store ctx instructions j later) (hij : i ≤ j) : I later := by
  induction h' with
  | start hook =>
      obtain rfl : i = 0 := by omega
      rw [← h.unique (.start hook)]
      exact hI
  | @step position instruction before after reached here applied ih =>
      rcases Nat.lt_or_ge position i with hlt | hge
      · obtain rfl : i = position + 1 := by omega
        rw [← h.unique (.step reached here applied)]
        exact hI
      · exact kept applied (ih hge)

-- ======================================================= runs and the verdict

/-- From a reached position, the rest of the walk is a walk from there. -/
theorem steps_eq {position : Nat} {run : Run P R}
    (h : machine.Reached store ctx instructions position run) :
    ∃ begun journal, machine.meter.onStart.run ctx .blank = (.ok (), begun, journal)
      ∧ machine.steps ⟨store, machine.format⟩ 0 instructions ⟨.empty, .start, begun, journal⟩
        = machine.steps ⟨store, machine.format⟩ position (instructions.drop position) run := by
  induction h with
  | start hook => exact ⟨_, _, hook, rfl⟩
  | @step position instruction run after reached here applied ih =>
      obtain ⟨begun, journal, hook, heq⟩ := ih
      refine ⟨begun, journal, hook, ?_⟩
      obtain ⟨hlt, hget⟩ := List.getElem?_eq_some_iff.mp here
      rw [heq, List.drop_eq_getElem_cons hlt, hget, steps, applied]

omit [StateObject P] [ReducerState R] in
/-- What a walk comes to next, of the instructions it is part of. -/
theorem next_of_walk {instruction : Instruction} {walked : List Instruction} {position : Nat}
    (hwalk : instruction :: walked <+: instructions.drop position) :
    instructions[position]? = some instruction ∧ walked <+: instructions.drop (position + 1) := by
  obtain ⟨rest, hrest⟩ := hwalk
  constructor
  · rw [← List.head?_drop, ← hrest]
    rfl
  · refine ⟨rest, ?_⟩
    rw [← List.tail_drop, ← hrest]
    rfl

/-- A walk that succeeds reaches the position behind its last instruction. -/
theorem of_steps_ok {final : Run P R} :
    ∀ {walked : List Instruction} {position : Nat} {run : Run P R},
      machine.Reached store ctx instructions position run →
      walked <+: instructions.drop position →
      machine.steps ⟨store, machine.format⟩ position walked run = (.ok (), final) →
      machine.Reached store ctx instructions (position + walked.length) final := by
  intro walked
  induction walked with
  | nil =>
      intro position run h hprefix hsteps
      cases hsteps
      exact h
  | cons instruction walked ih =>
      intro position run h hprefix hsteps
      obtain ⟨here, hprefix⟩ := next_of_walk hprefix
      rw [steps] at hsteps
      split at hsteps
      · cases hsteps
      · next after applied =>
          rw [List.length_cons, Nat.add_comm walked.length, ← Nat.add_assoc]
          exact ih (.step h here applied) hprefix hsteps

/-- A walk that fails has reached the instruction that does. -/
theorem of_steps_error {failed : Nat} {cause : ExecutionError} {final : Run P R} :
    ∀ {walked : List Instruction} {position : Nat} {run : Run P R},
      machine.Reached store ctx instructions position run →
      walked <+: instructions.drop position →
      machine.steps ⟨store, machine.format⟩ position walked run = (.error (failed, cause), final) →
      ∃ instruction before, machine.Reached store ctx instructions failed before
        ∧ instructions[failed]? = some instruction
        ∧ machine.step ⟨store, machine.format⟩ failed instruction before
          = (.error cause, final) := by
  intro walked
  induction walked with
  | nil =>
      intro position run h hprefix hsteps
      cases hsteps
  | cons instruction walked ih =>
      intro position run h hprefix hsteps
      obtain ⟨here, hprefix⟩ := next_of_walk hprefix
      rw [steps] at hsteps
      split at hsteps
      · next cause' after refused =>
          cases hsteps
          exact ⟨instruction, run, h, here, refused⟩
      · next after applied => exact ih (.step h here applied) hprefix hsteps

end Reached

/-- A position is reached exactly if the instructions before it, walked from
the start, all succeed. -/
theorem reached_iff {position : Nat} {run : Run P R} (hle : position ≤ instructions.length) :
    machine.Reached store ctx instructions position run ↔
      ∃ begun journal, machine.meter.onStart.run ctx .blank = (.ok (), begun, journal)
        ∧ machine.steps ⟨store, machine.format⟩ 0 (instructions.take position)
            ⟨.empty, .start, begun, journal⟩ = (.ok (), run) := by
  constructor
  · intro h
    induction h with
    | start hook => exact ⟨_, _, hook, rfl⟩
    | @step position instruction run after reached here applied ih =>
        obtain ⟨begun, journal, hook, hsteps⟩ := ih (Nat.le_of_succ_le hle)
        refine ⟨begun, journal, hook, ?_⟩
        rw [List.take_add_one, here, steps_append, hsteps]
        simp only [Nat.zero_add, List.length_take, Nat.min_eq_left (Nat.le_of_succ_le hle)]
        rw [Option.toList, steps, applied]
        rfl
  · intro h
    obtain ⟨begun, journal, hook, hsteps⟩ := h
    have reached := Reached.of_steps_ok (.start hook) (List.take_prefix _ _) hsteps
    rwa [Nat.zero_add, List.length_take, List.drop_zero, Nat.min_eq_left hle] at reached

/-- A computed walk reaches the run it leaves, where the hook before it does
nothing. -/
theorem reached_of_walk {position : Nat} (hle : position ≤ instructions.length)
    (hook : machine.meter.onStart.run ctx .blank = (.ok (), ctx, .blank))
    (walked : (machine.steps ⟨store, machine.format⟩ 0 (instructions.take position)
      ⟨.empty, .start, ctx, .blank⟩).1 = .ok ()) :
    machine.Reached store ctx instructions position
      (machine.steps ⟨store, machine.format⟩ 0 (instructions.take position)
        ⟨.empty, .start, ctx, .blank⟩).2 :=
  (reached_iff hle).mpr ⟨ctx, .blank, hook, Prod.ext walked rfl⟩

/-- How a transaction can end, and with which verdict. -/
inductive Ends (machine : Machine P R) (store : CommittedStore) (ctx : Context)
    (instructions : List Instruction) : Verdict P R → Prop
  /-- The meter refuses to begin. -/
  | unbegun {begun : Context} {journal : Journal} {cause : ExecutionError}
      (hook : machine.meter.onStart.run ctx .blank = (.error cause, begun, journal)) :
      Ends machine store ctx instructions ⟨.error ⟨0, none, .meter cause⟩, begun, journal⟩
  /-- An instruction fails. -/
  | fails {position : Nat} {instruction : Instruction} {run after : Run P R}
      {cause : ExecutionError} (reached : machine.Reached store ctx instructions position run)
      (here : instructions[position]? = some instruction)
      (failed : machine.step ⟨store, machine.format⟩ position instruction run
        = (.error cause, after)) :
      Ends machine store ctx instructions
        ⟨.error ⟨position, after.reduction.state, cause⟩, after.ctx, after.journal⟩
  /-- A group is left open. -/
  | opened {run : Run P R} (reached : machine.Reached store ctx instructions instructions.length run)
      (isOpen : run.reduction.isOpen = true) :
      Ends machine store ctx instructions
        ⟨.error ⟨instructions.length - 1, run.reduction.state, .unterminatedGroup⟩, run.ctx,
          run.journal⟩
  /-- The books do not settle. -/
  | unsettled {run : Run P R} {after : Context} {cause : ExecutionError}
      (reached : machine.Reached store ctx instructions instructions.length run)
      (closed : run.reduction.isOpen = false) (settle : run.ctx.settle = (.error cause, after)) :
      Ends machine store ctx instructions
        ⟨.error ⟨instructions.length - 1, none, cause⟩, after, run.journal⟩
  /-- All is well. -/
  | settled {run : Run P R} {after : Context}
      (reached : machine.Reached store ctx instructions instructions.length run)
      (closed : run.reduction.isOpen = false) (settle : run.ctx.settle = (.ok (), after)) :
      Ends machine store ctx instructions ⟨.ok run.reduction.groups, after, run.journal⟩

/-- Every verdict is one of these. -/
theorem ends_verify (machine : Machine P R) (store : CommittedStore) (ctx : Context)
    (instructions : List Instruction) :
    machine.Ends store ctx instructions (machine.verify store ctx instructions) := by
  unfold verify
  dsimp only
  split
  · next cause begun journal hook => exact .unbegun hook
  · next begun journal hook =>
      split
      · next position cause run hsteps =>
          obtain ⟨instruction, before, reached, here, failed⟩ :=
            Reached.of_steps_error (.start hook) List.prefix_rfl hsteps
          exact .fails reached here failed
      · next run hsteps =>
          have reached := Reached.of_steps_ok (.start hook) List.prefix_rfl hsteps
          rw [Nat.zero_add] at reached
          split
          · next isOpen => exact .opened reached isOpen
          · next closed =>
              split
              · next cause after settle =>
                  exact .unsettled reached (Bool.eq_false_iff.mpr closed) settle
              · next after settle => exact .settled reached (Bool.eq_false_iff.mpr closed) settle

/-- Of the ways to end, one is that of a verified transaction. -/
theorem settled_of_verify_ok {groups : List (List (StateUpdate P))}
    (h : (machine.verify store ctx instructions).outcome = .ok groups) :
    ∃ run after, machine.Reached store ctx instructions instructions.length run
      ∧ run.reduction.isOpen = false ∧ run.reduction.groups = groups
      ∧ run.ctx.settle = (.ok (), after)
      ∧ machine.verify store ctx instructions = ⟨.ok groups, after, run.journal⟩ := by
  have ends := machine.ends_verify store ctx instructions
  generalize machine.verify store ctx instructions = verdict at ends h ⊢
  cases ends with
  | unbegun hook => cases h
  | fails reached here failed => cases h
  | opened reached isOpen => cases h
  | unsettled reached closed settle => cases h
  | settled reached closed settle =>
      cases h
      exact ⟨_, _, reached, closed, rfl, settle, rfl⟩

/-- A verified transaction has reached its end, and what it answers are the
groups closed on the way; none is left open. -/
theorem reached_of_verify_ok {groups : List (List (StateUpdate P))}
    (h : (machine.verify store ctx instructions).outcome = .ok groups) :
    ∃ run, machine.Reached store ctx instructions instructions.length run
      ∧ run.reduction.isOpen = false ∧ run.reduction.groups = groups := by
  obtain ⟨run, after, reached, closed, answered, -⟩ := settled_of_verify_ok h
  exact ⟨run, reached, closed, answered⟩

/-- What was computed of the groups of a transaction, it was verified for and
it holds of those groups. -/
theorem verify_ok_of_toOption_map {α : Type} {f : List (List (StateUpdate P)) → α} {a : α}
    (h : (machine.verify store ctx instructions).outcome.toOption.map f = some a) :
    ∃ groups, (machine.verify store ctx instructions).outcome = .ok groups ∧ f groups = a := by
  cases accepted : (machine.verify store ctx instructions).outcome with
  | error rejection =>
      rw [accepted] at h
      cases h
  | ok groups =>
      rw [accepted] at h
      exact ⟨groups, rfl, Option.some.inj h⟩

/-- The updates a verified transaction answers are all its run recorded. -/
theorem updates_of_verify_ok {groups : List (List (StateUpdate P))}
    (h : (machine.verify store ctx instructions).outcome = .ok groups) :
    ∃ run, machine.Reached store ctx instructions instructions.length run
      ∧ run.reduction.updates = groups.flatten := by
  obtain ⟨run, hreached, hopen, rfl⟩ := reached_of_verify_ok h
  refine ⟨run, hreached, ?_⟩
  rw [Reduction.updates, (Reduction.isOpen_eq_false_iff.mp hopen).2, List.append_nil]

/-- An instruction that fails where it is reached is what the verdict
reports. -/
theorem verify_of_step_error {position : Nat} {instruction : Instruction} {run after : Run P R}
    {cause : ExecutionError} (h : machine.Reached store ctx instructions position run)
    (here : instructions[position]? = some instruction)
    (failed : machine.step ⟨store, machine.format⟩ position instruction run
      = (.error cause, after)) :
    (machine.verify store ctx instructions).outcome
      = .error ⟨position, after.reduction.state, cause⟩ := by
  obtain ⟨begun, journal, hook, heq⟩ := h.steps_eq
  obtain ⟨hlt, hget⟩ := List.getElem?_eq_some_iff.mp here
  have hsteps : machine.steps ⟨store, machine.format⟩ 0 instructions
      ⟨.empty, .start, begun, journal⟩ = (.error (position, cause), after) := by
    rw [heq, List.drop_eq_getElem_cons hlt, hget, steps, failed]
  unfold verify
  rw [hook]
  dsimp only
  rw [hsteps]

end LedgerCore.Machine
