/-
What the system's own transactions are exempt from. At system level the
gate of a call comes down to the permission check, and a signature marker
to nothing; so neither the meter, past its start, nor any authorizer has a
say in what becomes of the transaction, and the signature budget is spent
by procedures alone.

The exemption is granted in two places, at the gate (`admit?_of_system`)
and at the marker (`countSig_of_system`). Two machines that differ in meter
and authorizers are therefore alike at that level (`alikeIn_system`), which
no transaction leaves.

The hook that opens a transaction is called at every level. Where it spends
a signature, the budget is smaller afterwards.
-/
import LedgerCore.Proofs.Token.Conservation
import LedgerCore.Proofs.Token.Plain

namespace LedgerCore

variable {P R : Type}

-- ============================================================ rules but for asking

/-- Two rules that differ in their authorizers at most. -/
structure Procedure.AgreesUnasked (p q : Procedure P R) : Prop where
  level : p.requiredLevel = q.requiredLevel
  body : ∀ input state resource start,
    (p.body input state).run resource start = (q.body input state).run resource start

/-- Two tables that differ in the authorizers of their rules at most. -/
structure Procedures.AgreeUnasked (first second : Procedures P R) : Prop where
  keys : ∀ key, first.contains key = second.contains key
  rules : ∀ key p q, first.get key = .ok p → second.get key = .ok q → p.AgreesUnasked q

/-- The same rules, with other authorizers. -/
def Procedures.authorizedBy (procedures : Procedures P R)
    (authorize : ProcedureKey → Input P → Authorizer) : Procedures P R :=
  ⟨procedures.table.map fun key procedure => { procedure with authorize := authorize key }⟩

/-- Other authorizers for the same rules change nothing else of them. -/
theorem Procedures.agreeUnasked_authorizedBy (procedures : Procedures P R)
    (authorize : ProcedureKey → Input P → Authorizer) :
    procedures.AgreeUnasked (procedures.authorizedBy authorize) := by
  constructor
  · intro key
    simp only [contains, authorizedBy, Std.ExtTreeMap.contains_map]
  · intro key p q hp hq
    simp only [get, authorizedBy, Std.ExtTreeMap.getElem?_map] at hp hq
    cases found : procedures.table[key]? with
    | none =>
        rw [found] at hp
        cases hp
    | some procedure =>
        rw [found] at hp hq
        cases hp
        cases hq
        exact ⟨rfl, fun _ _ _ _ => rfl⟩

-- ============================================================ programs that never sign

/-- A hook that never uses up the signature budget. -/
def MeterHook.Unsigning (hook : MeterHook) : Prop :=
  Program.Only (E := meterEffects) (· ≠ .act .spendSig) hook

/-- No body of a rule uses up the signature budget. -/
def Procedures.Unsigning (procedures : Procedures P R) : Prop :=
  ∀ key procedure, procedures.get key = .ok procedure → ∀ input state,
    Program.Only (E := bodyEffects P) (· ≠ .act .spendSig) (procedure.body input state)

/-- No other operation touches the signature budget. -/
theorem Context.sigs_kept (budget : Nat) (op : ContextOp) (ctx : Context)
    (signs : op ≠ .spendSig) (kept : ctx.sigsLeft = budget) : (op.run ctx).2.sigsLeft = budget :=
  ((frame_run op ctx).sigs signs).trans kept

/-- Such a hook leaves the budget as it is. -/
theorem MeterHook.Unsigning.run_sigs {hook : MeterHook} (unsigning : hook.Unsigning)
    (ctx : Context) (journal : Journal) : (hook.run ctx journal).2.1.sigsLeft = ctx.sigsLeft :=
  MeterHook.only_keeps (I := (·.sigsLeft = ctx.sigsLeft))
    (fun op seen asked => Context.sigs_kept _ op seen fun signs => asked (signs ▸ rfl))
    unsigning journal rfl

theorem Body.run_sigs {body : Body P R}
    (unsigning : Program.Only (E := bodyEffects P) (· ≠ .act .spendSig) body)
    (resource : ResourceAddr → Except ExecutionError ResourceDefinition) (start : BodyState P) :
    (body.run resource start).2.ctx.sigsLeft = start.ctx.sigsLeft :=
  Body.only_keeps (I := (·.sigsLeft = start.ctx.sigsLeft))
    (fun op seen asked => Context.sigs_kept _ op seen fun signs => asked (signs ▸ rfl))
    unsigning resource start rfl

namespace Machine

-- ============================================================== the two exemptions

/-- At system level the gate is the permission check. -/
theorem admit?_of_system (machine : Machine P R) (procedure : Procedure P R) (key : ProcedureKey)
    (input : Input P) (resource : ResourceAddr → Except ExecutionError ResourceDefinition)
    {ctx : Context} (journal : Journal) (system : ctx.level = .system) :
    machine.admit? procedure key input resource ctx journal
      = (ctx.checkPermission (procedure.requiredLevel input), ctx, journal) := by
  unfold admit?
  dsimp only
  cases ctx.checkPermission (procedure.requiredLevel input) with
  | error cause => rfl
  | ok permitted =>
      dsimp only
      rw [if_pos system]

/-- At system level a signature marker is a mere marker. -/
theorem countSig_of_system (machine : Machine P R) {run : Run P R}
    (system : run.ctx.level = .system) : machine.countSig run = (.ok (), run) := by
  unfold countSig
  rw [if_pos system]

variable [StateObject P] [ReducerState R] {machine : Machine P R} {ledger : Ledger P}

/-- At system level, machines that differ in meter and authorizers act alike. -/
theorem alikeIn_system {procedures : Procedures P R} (meter : Meter)
    (agree : machine.procedures.AgreeUnasked procedures) :
    machine.AlikeIn { machine with procedures := procedures, meter := meter } ledger
      (·.level = .system) where
  perform call system := by
    rw [perform_eq, perform_eq]
    rcases Procedures.get_cases agree.keys ⟨reducerKind call.run.reduction.state, call.op⟩ with
      ⟨cause, hp, hq⟩ | ⟨p, q, hp, hq⟩
    · rw [hp, hq]
    · have agrees := agree.rules _ p q hp hq
      rw [hp, hq]
      dsimp only
      rw [admit?_of_system _ _ _ _ _ _ system, admit?_of_system _ _ _ _ _ _ system,
        ← agrees.level]
      cases call.run.ctx.checkPermission (p.requiredLevel call.input) with
      | error cause => rfl
      | ok permitted =>
          dsimp only [carryOut]
          rw [agrees.body]
  countSig run system := by rw [countSig_of_system _ system, countSig_of_system _ system]
  kept position instruction _ system :=
    step_keeps (Context.level_kept .system) machine ledger position instruction system

-- ============================================================== the signature budget

/-- At system level no step touches the budget, unless a body does. -/
theorem sigs_of_step (unsigning : machine.procedures.Unsigning) (position : Nat)
    (instruction : Instruction) {run : Run P R} (system : run.ctx.level = .system) :
    (machine.step ledger position instruction run).2.ctx.sigsLeft = run.ctx.sigsLeft := by
  rw [step_eq]
  have demanded := demands ledger position instruction run
  generalize demand ledger position instruction run = demand at demanded ⊢
  cases demanded with
  | fails instruction cause => rfl
  | closes void => rfl
  | passes instruction => rfl
  | signs => exact congrArg (·.2.ctx.sigsLeft) (machine.countSig_of_system system)
  | @calls instruction call made =>
      -- at system level no meter stands before a call, and its body does not sign
      have kept : (machine.perform ledger call).2.ctx.sigsLeft = run.ctx.sigsLeft := by
        rw [← made.ctx, perform_eq]
        split
        · rfl
        · next procedure found =>
            rw [admit?_of_system _ _ _ _ _ _ (made.ctx ▸ system)]
            cases call.run.ctx.checkPermission (procedure.requiredLevel call.input) with
            | error cause => rfl
            | ok permitted =>
                have ran := Body.run_sigs
                  (unsigning _ procedure found call.input call.run.reduction.state)
                  (call.run.overlay.resource ledger)
                  ⟨call.offers, [], call.run.ctx, call.run.journal⟩
                dsimp only [carryOut]
                split
                · exact ran
                · exact ran
      dsimp only [answer]
      split
      · next cause after performed =>
          rw [performed] at kept
          exact kept
      · next pulled after performed =>
          rw [performed] at kept
          rw [conclude_ctx]
          exact kept

-- ================================================================ transactions

variable {store : CommittedStore} {ctx : Context} {instructions : List Instruction}

/-- Whatever comes of the step that a run of the system comes to, it leaves
the budget alone. -/
theorem Reached.sigs_of_step (unsigning : machine.procedures.Unsigning)
    (system : ctx.level = .system) {position : Nat} {instruction : Instruction}
    {run after : Run P R} {result : Except ExecutionError Unit}
    (reached : machine.Reached store ctx instructions position run)
    (stepped : machine.step ⟨store, machine.format⟩ position instruction run = (result, after)) :
    after.ctx.sigsLeft = run.ctx.sigsLeft := by
  have kept : (machine.step ⟨store, machine.format⟩ position instruction run).2.ctx.sigsLeft
      = run.ctx.sigsLeft :=
    Machine.sigs_of_step unsigning position instruction
      (reached.keeps_ctx (Context.level_kept .system) system)
  rwa [stepped] at kept

/-- Wherever a run of the system comes to, the budget is what the start left. -/
theorem Reached.sigs_of_system (unsigning : machine.procedures.Unsigning)
    (system : ctx.level = .system) {position : Nat} {run : Run P R}
    (reached : machine.Reached store ctx instructions position run) :
    run.ctx.sigsLeft = (machine.meter.onStart.run ctx .blank).2.1.sigsLeft := by
  induction reached with
  | start hook => rw [hook]
  | step reached here applied ih => exact (reached.sigs_of_step unsigning system applied).trans ih

/-- A transaction of the system leaves the budget as its start does. -/
theorem sigs_of_verify (unsigning : machine.procedures.Unsigning) (store : CommittedStore)
    (instructions : List Instruction) (system : ctx.level = .system) :
    (machine.verify store ctx instructions).ctx.sigsLeft
      = (machine.meter.onStart.run ctx .blank).2.1.sigsLeft := by
  -- settling the books costs no signature
  have settles : ∀ {ctx after : Context} {result : Except ExecutionError Unit},
      ctx.settle = (result, after) → after.sigsLeft = ctx.sigsLeft := by
    intro ctx after result settle
    have kept := (Context.frame_run .settle ctx).sigs nofun
    rwa [ContextOp.run, Context.silent_snd, settle] at kept
  have ends := machine.ends_verify store ctx instructions
  generalize machine.verify store ctx instructions = verdict at ends ⊢
  cases ends with
  | unbegun hook => rw [hook]
  | fails reached here failed =>
      exact (reached.sigs_of_step unsigning system failed).trans
        (reached.sigs_of_system unsigning system)
  | opened reached isOpen => exact reached.sigs_of_system unsigning system
  | unsettled reached closed settle =>
      exact (settles settle).trans (reached.sigs_of_system unsigning system)
  | settled reached closed settle =>
      exact (settles settle).trans (reached.sigs_of_system unsigning system)

/-- Transactions of the system are outside metering, authorizers and the
signature budget. Whatever the meter, as long as it opens a transaction in
the same way, and whatever the authorizers, the verdict is the same, and so
is the context that is left. If no rule uses up the budget, it is left as
the start of the transaction leaves it, however many signature markers
there are; and as it was, if the start does not use it up either. -/
theorem system_exempt (machine : Machine P R) (procedures : Procedures P R) (meter : Meter)
    (store : CommittedStore) (ctx : Context) (instructions : List Instruction)
    (system : ctx.level = .system)
    (start : ∀ ctx journal, meter.onStart.run ctx journal = machine.meter.onStart.run ctx journal)
    (agree : machine.procedures.AgreeUnasked procedures) :
    { machine with procedures := procedures, meter := meter }.verify store ctx instructions
        = machine.verify store ctx instructions
      ∧ (machine.procedures.Unsigning →
          (machine.verify store ctx instructions).ctx.sigsLeft
              = (machine.meter.onStart.run ctx .blank).2.1.sigsLeft
            ∧ (machine.meter.onStart.Unsigning →
                (machine.verify store ctx instructions).ctx.sigsLeft = ctx.sigsLeft)) := by
  refine ⟨?_, fun unsigning => ?_⟩
  · exact (alikeIn_system meter agree).verify_eq rfl (start ctx .blank)
      ((machine.meter.onStart.within_run ctx .blank).level.trans system) instructions
  · have sigs := sigs_of_verify unsigning store instructions system
    exact ⟨sigs, fun quiet => sigs.trans (quiet.run_sigs ctx .blank)⟩

end Machine

namespace Token

/-- The plain rules neither charge nor sign. -/
theorem plainRules_unsigning : (Procedures.ofList plainRules).Unsigning := by
  intro key procedure found input state
  refine Program.Only.mono (Plain.plainRules_ask input state found) fun op asked signs => ?_
  rw [signs] at asked
  exact asked

/-- The plain rules with a fee, and with authorizers that let nobody pass. -/
def closedMachine : Machine Object Flow where
  procedures := (Procedures.ofList plainRules).authorizedBy fun _ => (Check.deny "closed").run
  format := format
  meter := .fixed ⟨5, by decide⟩

/-- Three signatures, and tokens out of nothing. -/
def signedMint : List Instruction := [.sig, .sig, .sig, .up (.stored [5]) fiveTokens, .close]

/-- A machine without rules that opens every transaction with a signature. -/
def signingMachine : Machine Object Flow :=
  ⟨.empty, format, { Meter.free with onStart := .act .spendSig }⟩

end Token

namespace Machine

open Token

/-- Where nobody passes, the system does, and pays no fee; three signatures
leave its budget of one as it is. For a user the rules are closed. -/
theorem system_passes_closed_rules :
    closedMachine.verify oneHolding.toStore (.fresh default .system 1) signedMint
        = plainMachine.verify oneHolding.toStore (.fresh default .system 1) signedMint
      ∧ (closedMachine.verify oneHolding.toStore (.fresh default .system 1) signedMint).ctx.sigsLeft
        = 1
      ∧ (closedMachine.verify oneHolding.toStore (.fresh default .system 1)
          signedMint).outcome.isOk = true
      ∧ (closedMachine.verify oneHolding.toStore userContext handOn).outcome.isOk = false := by
  obtain ⟨same, sigs⟩ := system_exempt plainMachine closedMachine.procedures closedMachine.meter
    oneHolding.toStore (.fresh default .system 1) signedMint rfl (fun _ _ => rfl)
    (Procedures.agreeUnasked_authorizedBy _ fun _ => (Check.deny "closed").run)
  have kept := (sigs plainRules_unsigning).2 trivial
  refine ⟨same, ?_, ?_, by decide +kernel⟩
  · exact (congrArg (·.ctx.sigsLeft) same).trans kept
  · decide +kernel

/-- No rule signs, there being none, and yet the budget of the system is not
what it was. -/
theorem budget_not_kept_by_start_hook :
    ¬ ∀ (machine : Machine Object Flow) (store : CommittedStore) (ctx : Context)
        (instructions : List Instruction), ctx.level = .system → machine.procedures.Unsigning →
        (machine.verify store ctx instructions).ctx.sigsLeft = ctx.sigsLeft := by
  intro kept
  have unsigning : signingMachine.procedures.Unsigning := by
    intro key procedure found
    simp [signingMachine, Procedures.get, Procedures.empty] at found
  have same := kept signingMachine oneHolding.toStore (.fresh default .system 1) [.sig] rfl unsigning
  have spent : (signingMachine.verify oneHolding.toStore (.fresh default .system 1)
      [.sig]).ctx.sigsLeft = 0 := by decide +kernel
  rw [spent] at same
  cases same

end Machine

end LedgerCore
