/-
Where a failure comes from. A call fails for want of a rule, at the gate, or
in the rule's body (`CallFails`); a step fails before its call, with it, or
because of what it left (`StepFails`). The constructors carry what was run
and what it answered, so that a proof about failures of one kind is a case
split in which all other kinds drop out.

The meter fails a transaction in three places: as it begins, at the gate of
a call, and at a signature marker (`MeterStops`). A rejection under the
meter's name is one of these, unless it was answered by a look-up or by a
body in the meter's place (`meterStops_of_rejected`).
-/
import LedgerCore.Proofs.Machine.Run

namespace LedgerCore.Machine

variable {P R : Type} {machine : Machine P R}

-- ===================================================================== the gate

/-- What the gate lets through, unless it is the system's, has passed the
meter's hook, and goes on in the context the hook left. -/
theorem hook_of_admitted {procedure : Procedure P R} {key : ProcedureKey} {input : Input P}
    {resource : ResourceAddr → Except ExecutionError ResourceDefinition} {ctx admitted : Context}
    {journal noted : Journal} (metered : ctx.level ≠ .system)
    (h : machine.admit? procedure key input resource ctx journal = (.ok (), admitted, noted)) :
    ∃ hooked, (meterHook machine.meter (procedure.requiredLevel input) key).run ctx journal
      = (.ok (), admitted, hooked) := by
  unfold admit? at h
  dsimp only at h
  split at h
  · cases h
  · rw [if_neg metered] at h
    split at h
    · cases h
    · next after hooked hook =>
        split at h
        · cases h
          exact ⟨_, hook⟩
        · split at h
          · cases h
          · cases h
            exact ⟨_, hook⟩

/-- Why the gate refuses. -/
inductive GateFails (machine : Machine P R) (procedure : Procedure P R) (key : ProcedureKey)
    (input : Input P) (ctx : Context) (journal : Journal) : ExecutionError → Prop
  | forbidden {cause : ExecutionError}
      (check : ctx.checkPermission (procedure.requiredLevel input) = .error cause) :
      GateFails machine procedure key input ctx journal cause
  | metered {cause : ExecutionError} {after : Context} {noted : Journal}
      (metered : ctx.level ≠ .system)
      (hook : (meterHook machine.meter (procedure.requiredLevel input) key).run ctx journal
        = (.error cause, after, noted)) :
      GateFails machine procedure key input ctx journal (.meter cause)
  | unauthorized (cause : AuthorizationError) :
      GateFails machine procedure key input ctx journal (.unauthorized cause)

/-- Permission, meter and authorizer are all that the gate consists of. -/
theorem gateFails_of_admit? {procedure : Procedure P R} {key : ProcedureKey} {input : Input P}
    {resource : ResourceAddr → Except ExecutionError ResourceDefinition} {ctx after : Context}
    {journal noted : Journal} {cause : ExecutionError}
    (h : machine.admit? procedure key input resource ctx journal = (.error cause, after, noted)) :
    machine.GateFails procedure key input ctx journal cause := by
  unfold admit? at h
  dsimp only at h
  split at h
  · next check =>
      cases h
      exact .forbidden check
  · split at h
    · cases h
    · next metered =>
        split at h
        · next hook =>
            cases h
            exact .metered metered hook
        · split at h
          · cases h
          · split at h
            · cases h
              exact .unauthorized _
            · cases h

-- ============================================================== calls and steps

variable [StateObject P] [ReducerState R]

/-- Why a call fails. -/
inductive CallFails (machine : Machine P R) (ledger : Ledger P) (call : Call P R) :
    ExecutionError → Prop
  | missing : CallFails machine ledger call (.missingProcedure call.key)
  | gate {procedure : Procedure P R} {cause : ExecutionError}
      (found : machine.procedures.get call.key = .ok procedure)
      (fails : machine.GateFails procedure call.key call.input call.run.ctx call.run.journal cause) :
      CallFails machine ledger call cause
  | body {procedure : Procedure P R} {start : BodyState P} {cause : ExecutionError}
      (found : machine.procedures.get call.key = .ok procedure)
      (ran : ((procedure.body call.input call.run.reduction.state).run
        (call.run.overlay.resource ledger) start).1 = .error cause) :
      CallFails machine ledger call cause

variable {ledger : Ledger P}

/-- A call fails for want of a procedure, at the gate or in the body. -/
theorem callFails_of_perform {call : Call P R} {after : Run P R} {cause : ExecutionError}
    (h : machine.perform ledger call = (.error cause, after)) :
    machine.CallFails ledger call cause := by
  rw [perform_eq, show (⟨reducerKind call.run.reduction.state, call.op⟩ : ProcedureKey) = call.key
    from rfl] at h
  cases found : machine.procedures.get call.key with
  -- no such procedure
  | error missing =>
      rw [found] at h
      cases h
      unfold Procedures.get at found
      split at found
      · cases found
      · cases found
        exact .missing
  | ok procedure =>
      rw [found] at h
      dsimp only at h
      rcases gated : machine.admit? procedure _ _ _ _ _ with ⟨refused | ⟨⟩, ctx, journal⟩
      · rw [gated] at h
        cases h
        exact .gate found (gateFails_of_admit? gated)
      · rw [gated] at h
        dsimp only [carryOut] at h
        split at h
        · next failed ended =>
            cases h
            exact .body found ended
        · cases h

/-- Why a step fails. -/
inductive StepFails (machine : Machine P R) (ledger : Ledger P) (position : Nat) (run : Run P R)
    (instruction : Instruction) : ExecutionError → Prop
  | demand {cause : ExecutionError}
      (demanded : demand ledger position instruction run = .fails cause) :
      StepFails machine ledger position run instruction cause
  | call {call : Call P R} {cause : ExecutionError}
      (demanded : demand ledger position instruction run = .calls call)
      (fails : machine.CallFails ledger call cause) :
      StepFails machine ledger position run instruction cause
  | unclosed (kind : ReducerKind) :
      StepFails machine ledger position run instruction (.unclosedGroup kind)
  | signature {cause : ExecutionError} {after : Context} {noted : Journal}
      (marker : instruction = .sig) (metered : run.ctx.level ≠ .system)
      (hook : machine.meter.onSig.run run.ctx run.journal = (.error cause, after, noted)) :
      StepFails machine ledger position run instruction (.meter cause)
  | exhausted : StepFails machine ledger position run instruction .signatureBudgetExhausted

/-- A signature fails at the meter, or for want of budget. -/
theorem stepFails_of_countSig {position : Nat} {run after : Run P R} {cause : ExecutionError}
    (h : machine.countSig run = (.error cause, after)) :
    machine.StepFails ledger position run .sig cause := by
  unfold countSig at h
  split at h
  · cases h
  · next metered =>
      split at h
      · next hook =>
          cases h
          exact .signature rfl metered hook
      · next ctx journal hook =>
          unfold Context.spendSig at h
          split at h
          · next result spent heq =>
              cases h
              split at heq
              · cases heq
                exact .exhausted
              · cases heq

/-- Every failure of a step is of one of these kinds. -/
theorem stepFails_of_step {position : Nat} {instruction : Instruction} {run after : Run P R}
    {cause : ExecutionError}
    (h : machine.step ledger position instruction run = (.error cause, after)) :
    machine.StepFails ledger position run instruction cause := by
  rw [step_eq] at h
  have demanded := demands ledger position instruction run
  generalize asked : LedgerCore.Machine.demand ledger position instruction run = demand
    at demanded h
  cases demanded with
  | fails instruction cause =>
      cases h
      exact .demand asked
  | closes void => cases h
  | passes instruction => cases h
  | signs => exact stepFails_of_countSig h
  | calls made =>
      dsimp only [answer] at h
      split at h
      · next failed performed =>
          cases h
          exact .call asked (callFails_of_perform performed)
      · next pulled left performed =>
          unfold conclude at h
          split at h
          · cases h
          · cases h
          · cases h
          · cases h
          · split at h
            · cases h
              exact .unclosed _
            · cases h
          · cases h

-- =================================================================== the meter

/-- The meter fails a transaction for this cause. -/
inductive MeterStops (machine : Machine P R) (store : CommittedStore) (ctx : Context)
    (instructions : List Instruction) (cause : ExecutionError) : Prop
  /-- As it begins. -/
  | start {after : Context} {noted : Journal}
      (hook : machine.meter.onStart.run ctx .blank = (.error cause, after, noted))
  /-- At the gate of a call. -/
  | call {position : Nat} {instruction : Instruction} {run : Run P R} {call : Call P R}
      {procedure : Procedure P R} {after : Context} {noted : Journal}
      (reached : machine.Reached store ctx instructions position run)
      (here : instructions[position]? = some instruction)
      (demanded : demand ⟨store, machine.format⟩ position instruction run = .calls call)
      (found : machine.procedures.get call.key = .ok procedure)
      (hook : (meterHook machine.meter (procedure.requiredLevel call.input) call.key).run
        call.run.ctx call.run.journal = (.error cause, after, noted))
  /-- At a signature marker. -/
  | signature {position : Nat} {run : Run P R} {after : Context} {noted : Journal}
      (reached : machine.Reached store ctx instructions position run)
      (here : instructions[position]? = some .sig)
      (hook : machine.meter.onSig.run run.ctx run.journal = (.error cause, after, noted))

/-- What the ledger is asked for answers this cause, without the meter. -/
inductive LedgerStops (machine : Machine P R) (store : CommittedStore) (ctx : Context)
    (instructions : List Instruction) (cause : ExecutionError) : Prop
  /-- A look-up does. -/
  | demand {position : Nat} {instruction : Instruction} {run : Run P R}
      (reached : machine.Reached store ctx instructions position run)
      (here : instructions[position]? = some instruction)
      (demanded : demand ⟨store, machine.format⟩ position instruction run = .fails cause)
  /-- A rule's body does. -/
  | body {position : Nat} {instruction : Instruction} {run : Run P R} {call : Call P R}
      {procedure : Procedure P R} {start : BodyState P}
      (reached : machine.Reached store ctx instructions position run)
      (here : instructions[position]? = some instruction)
      (demanded : demand ⟨store, machine.format⟩ position instruction run = .calls call)
      (found : machine.procedures.get call.key = .ok procedure)
      (ran : ((procedure.body call.input call.run.reduction.state).run
        (call.run.overlay.resource ⟨store, machine.format⟩) start).1 = .error cause)

/-- A permission is not refused under the meter's name. -/
theorem not_meter_of_checkPermission {ctx : Context} {required : PermissionLevel}
    {cause : ExecutionError} : ctx.checkPermission required ≠ .error (.meter cause) := by
  intro check
  unfold Context.checkPermission at check
  split at check
  · cases check
  · split at check
    · cases check
    · cases check

/-- Books that do not settle are not refused under the meter's name. -/
theorem not_meter_of_settle {ctx after : Context} {cause : ExecutionError} :
    ctx.settle ≠ (.error (.meter cause), after) := by
  intro settle
  unfold Context.settle Context.payOffLoan at settle
  split at settle
  · next paid =>
      cases settle
      split at paid
      · cases paid
      · split at paid
        · cases paid
        · cases paid
  · split at settle
    · cases settle
    · cases settle

variable {store : CommittedStore} {ctx : Context} {instructions : List Instruction}

/-- Who is rejected under the meter's name is rejected by the meter, or else
by a look-up or a body that answers in its place. -/
theorem meterStops_of_rejected {rejection : Rejection R} {cause : ExecutionError}
    (rejected : (machine.verify store ctx instructions).outcome = .error rejection)
    (metered : rejection.cause = .meter cause) :
    machine.MeterStops store ctx instructions cause
      ∨ machine.LedgerStops store ctx instructions (.meter cause) := by
  have ends := machine.ends_verify store ctx instructions
  generalize machine.verify store ctx instructions = verdict at ends rejected
  cases ends with
  | unbegun hook =>
      cases rejected
      cases metered
      exact .inl (.start hook)
  | fails reached here failed =>
      cases rejected
      obtain rfl := metered
      cases stepFails_of_step failed with
      -- an error that looks like the meter's, but comes from the ledger
      | demand demanded => exact .inr (.demand reached here demanded)
      | signature marker level hook => exact .inl (.signature reached (marker ▸ here) hook)
      | call demanded fails =>
          cases fails with
          | gate found refused =>
              cases refused with
              | forbidden check => exact absurd check not_meter_of_checkPermission
              | metered level hook => exact .inl (.call reached here demanded found hook)
          | body found ran => exact .inr (.body reached here demanded found ran)
  | opened reached isOpen =>
      cases rejected
      cases metered
  | unsettled reached closed settle =>
      cases rejected
      obtain rfl := metered
      exact absurd settle not_meter_of_settle
  | settled reached closed settle => cases rejected

end LedgerCore.Machine
