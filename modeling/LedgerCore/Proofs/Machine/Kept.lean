/-
What a run keeps of its context. Hooks, bodies and the signature marker act
on the context by its operations only, so a property that no operation
breaks (`Context.Kept`) is broken by no hook and no body, and hence by no
step, whether it succeeds or fails, and holds wherever a run comes to
(`Reached.keeps_ctx`).

Level and key are such a property (`within_step`), the level alone is one
(`level_kept`), and so is the transaction that fees are computed from
(`txn_kept`).
-/
import LedgerCore.Proofs.Context.Authority
import LedgerCore.Proofs.Machine.Run

namespace LedgerCore

namespace Context

theorem txn_kept (txn : Txn) : Kept (·.txn = txn) :=
  fun op ctx same => (frame_run op ctx).txn.trans same

theorem level_kept (level : PermissionLevel) : Kept (·.level = level) :=
  fun op ctx same => (frame_run op ctx).level.trans same

end Context

namespace Machine

variable {P R : Type} {I : Context → Prop}

-- ======================================================================= steps

/-- The gate acts on the context by the meter's hook only. -/
theorem admit?_keeps (kept : Context.Kept I) (machine : Machine P R) (procedure : Procedure P R)
    (key : ProcedureKey) (input : Input P)
    (resource : ResourceAddr → Except ExecutionError ResourceDefinition) {ctx : Context}
    (journal : Journal) (h : I ctx) :
    I (machine.admit? procedure key input resource ctx journal).2.1 := by
  unfold admit?
  dsimp only
  split
  · -- not permitted
    exact h
  · split
    · -- a transaction of the system
      exact h
    · have hooked :=
        (meterHook machine.meter (procedure.requiredLevel input) key).run_keeps kept journal h
      split
      · next hook =>
          rw [hook] at hooked
          exact hooked
      · next hook =>
          rw [hook] at hooked
          -- whatever the authorizer says, it has no hold of the context
          split
          · exact hooked
          · split
            · exact hooked
            · exact hooked

variable [StateObject P] [ReducerState R]

/-- A call acts on the context at the gate and in the body. -/
theorem perform_keeps (kept : Context.Kept I) (machine : Machine P R) (ledger : Ledger P)
    {call : Call P R} (h : I call.run.ctx) : I (machine.perform ledger call).2.ctx := by
  rw [perform_eq]
  split
  · exact h
  · next procedure found =>
      have admitted := admit?_keeps kept machine procedure
        ⟨reducerKind call.run.reduction.state, call.op⟩ call.input
        (call.run.overlay.resource ledger) call.run.journal h
      generalize machine.admit? procedure _ _ _ _ _ = gated at admitted ⊢
      rcases gated with ⟨cause | ⟨⟩, ctx, journal⟩
      · exact admitted
      · have ran := (procedure.body call.input call.run.reduction.state).run_keeps kept
          (call.run.overlay.resource ledger) ⟨call.offers, [], ctx, journal⟩ admitted
        dsimp only [carryOut]
        split
        · exact ran
        · exact ran

omit [StateObject P] [ReducerState R] in
/-- The signature marker acts on it by the meter's hook and by taking from
the budget. -/
theorem countSig_keeps (kept : Context.Kept I) (machine : Machine P R) {run : Run P R}
    (h : I run.ctx) : I (machine.countSig run).2.ctx := by
  unfold countSig
  split
  · exact h
  · have hooked := machine.meter.onSig.run_keeps kept run.journal h
    split
    · next hook =>
        rw [hook] at hooked
        exact hooked
    · next ctx journal hook =>
        rw [hook] at hooked
        have spent := kept .spendSig ctx hooked
        rw [ContextOp.run, Context.silent_snd] at spent
        exact spent

/-- What no operation breaks, no step breaks. -/
theorem step_keeps (kept : Context.Kept I) (machine : Machine P R) (ledger : Ledger P)
    (position : Nat) (instruction : Instruction) {run : Run P R} (h : I run.ctx) :
    I (machine.step ledger position instruction run).2.ctx := by
  rw [step_eq]
  have demanded := demands ledger position instruction run
  generalize demand ledger position instruction run = demand at demanded ⊢
  cases demanded with
  | fails instruction cause => exact h
  | closes void => exact h
  | passes instruction => exact h
  | signs => exact countSig_keeps kept machine h
  | @calls instruction call made =>
      have begun : I call.run.ctx := made.ctx ▸ h
      have performed := perform_keeps kept machine ledger begun
      dsimp only [answer]
      split
      · next cause after ended =>
          rw [ended] at performed
          exact performed
      · next pulled after ended =>
          rw [ended] at performed
          rw [conclude_ctx]
          exact performed

/-- No step changes the level or removes the key. -/
theorem within_step (machine : Machine P R) (ledger : Ledger P) (position : Nat)
    (instruction : Instruction) (run : Run P R) :
    (machine.step ledger position instruction run).2.ctx.Within run.ctx :=
  step_keeps (Context.within_kept run.ctx) machine ledger position instruction (.refl _)

-- ======================================================================== runs

variable {machine : Machine P R} {store : CommittedStore} {ctx : Context}
  {instructions : List Instruction}

/-- What no operation breaks holds wherever a run comes to. -/
theorem Reached.keeps_ctx (kept : Context.Kept I) {position : Nat} {run : Run P R}
    (reached : machine.Reached store ctx instructions position run) (h : I ctx) : I run.ctx := by
  induction reached with
  | start hook =>
      have begun := machine.meter.onStart.run_keeps kept .blank h
      rw [hook] at begun
      exact begun
  | @step position instruction run after reached here applied ih =>
      have stepped := step_keeps kept machine ⟨store, machine.format⟩ position instruction ih
      rw [applied] at stepped
      exact stepped

end Machine

end LedgerCore
