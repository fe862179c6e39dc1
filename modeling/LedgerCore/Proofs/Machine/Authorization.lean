/-
Authorizers only restrict. A run of a transaction and the run of the same
transaction that skips the authorizers go in lock step: overlay and
reduction are the same, and the contexts differ in the flag alone
(`Run.Shadows`). They part at the first authorizer that refuses, and there
the run that asks it is rejected.

# The argument

Nobody but the gate looks at the flag: the operations of a context do not
(`Context.run_skipping`), and meters and bodies are assumed not to ask for
it (`Machine.Blind`). At the gate, permission and meter come first and go
alike for both runs; the authorizer is consulted last, and leaves nothing
but notes (`admit?_shadows`). Journals are therefore not compared.
-/
import LedgerCore.Proofs.Machine.Privilege
import LedgerCore.Proofs.Token.Script

namespace LedgerCore

variable {P R : Type}

/-- Two runs that differ in the flag and the journal at most, of which the
second skips the authorizers. -/
structure Run.Shadows (run shadow : Run P R) : Prop where
  overlay : shadow.overlay = run.overlay
  reduction : shadow.reduction = run.reduction
  ctx : shadow.ctx = run.ctx.skipping

/-- A shadow is the run itself with the flag set, under some journal. -/
theorem Run.Shadows.exists_journal {run shadow : Run P R} (alike : run.Shadows shadow) :
    ∃ journal, shadow = ⟨run.overlay, run.reduction, run.ctx.skipping, journal⟩ := by
  obtain ⟨overlay, reduction, ctx, journal⟩ := shadow
  obtain ⟨rfl, rfl, rfl⟩ := alike
  exact ⟨journal, rfl⟩

namespace Machine

/-- Neither the meter nor a body asks whether authorization is skipped. -/
structure Blind (machine : Machine P R) : Prop where
  onStart : machine.meter.onStart.Blind
  onUser : ∀ key, (machine.meter.onUser key).Blind
  onSuperUser : ∀ key, (machine.meter.onSuperUser key).Blind
  onSig : machine.meter.onSig.Blind
  body : ∀ key procedure, machine.procedures.get key = .ok procedure →
    ∀ input state, (procedure.body input state).Blind

/-- A meter that does not ask has no hook that does. -/
theorem Blind.meterHook {machine : Machine P R} (blind : machine.Blind)
    (required : PermissionLevel) (key : ProcedureKey) :
    (Machine.meterHook machine.meter required key).Blind := by
  cases required with
  | user => exact blind.onUser key
  | superUser => exact blind.onSuperUser key
  | system => exact trivial

-- =================================================================== the gate

/-- At the gate the two runs either fare alike, or permission and meter let
both through and the authorizer refuses the one that asks it. -/
theorem admit?_shadows {machine : Machine P R} (blind : machine.Blind) (procedure : Procedure P R)
    (key : ProcedureKey) (input : Input P)
    (resource : ResourceAddr → Except ExecutionError ResourceDefinition) (ctx : Context)
    (journal journal' : Journal) :
    ((machine.admit? procedure key input resource ctx journal).1
          = (machine.admit? procedure key input resource ctx.skipping journal').1
        ∧ (machine.admit? procedure key input resource ctx.skipping journal').2.1
          = (machine.admit? procedure key input resource ctx journal).2.1.skipping)
      ∨ ∃ metered noted refusal,
          (meterHook machine.meter (procedure.requiredLevel input) key).run ctx journal
              = (.ok (), metered, noted)
            ∧ ((procedure.authorize input).run resource metered noted).1 = .error refusal
            ∧ (machine.admit? procedure key input resource ctx journal).1
              = .error (.unauthorized refusal) := by
  have permission : ctx.skipping.checkPermission (procedure.requiredLevel input)
      = ctx.checkPermission (procedure.requiredLevel input) := rfl
  have level : ctx.skipping.level = ctx.level := rfl
  unfold admit?
  dsimp only
  rw [permission, level]
  cases ctx.checkPermission (procedure.requiredLevel input) with
  | error cause => exact .inl ⟨rfl, rfl⟩
  | ok permitted =>
      dsimp only
      by_cases hsystem : ctx.level = .system
      · rw [if_pos hsystem, if_pos hsystem]
        exact .inl ⟨rfl, rfl⟩
      · rw [if_neg hsystem, if_neg hsystem]
        -- the meter answers both alike
        obtain ⟨same, shadow⟩ :=
          (blind.meterHook (procedure.requiredLevel input) key).run_skipping ctx journal journal'
        generalize (meterHook machine.meter (procedure.requiredLevel input) key).run ctx journal
          = hooked at same shadow ⊢
        generalize (meterHook machine.meter (procedure.requiredLevel input) key).run ctx.skipping
          journal' = hooked' at same shadow ⊢
        obtain ⟨result, metered, noted⟩ := hooked
        obtain ⟨result', metered', noted'⟩ := hooked'
        obtain rfl : result = result' := same
        obtain rfl : metered' = metered.skipping := shadow
        cases result with
        | error cause => exact .inl ⟨rfl, rfl⟩
        | ok admitted =>
            dsimp only
            rw [if_pos (show metered.skipping.skipAuthorization = true from rfl)]
            by_cases hskip : metered.skipAuthorization
            · rw [if_pos hskip]
              exact .inl ⟨rfl, rfl⟩
            · rw [if_neg hskip]
              rcases asked : (procedure.authorize input).run resource metered noted
                with ⟨refusal | ⟨⟩, left⟩
              · exact .inr ⟨metered, noted, refusal, rfl, by rw [asked], rfl⟩
              · exact .inl ⟨rfl, rfl⟩

variable [StateObject P] [ReducerState R] {machine : Machine P R} {ledger : Ledger P}

/-- The authorizer of the procedure behind a call refuses the call's input,
looking at the resources and the context that the call has before it. -/
def Refuses (machine : Machine P R) (ledger : Ledger P) (call : Call P R)
    (refusal : AuthorizationError) : Prop :=
  let key : ProcedureKey := ⟨reducerKind call.run.reduction.state, call.op⟩
  ∃ procedure metered noted, machine.procedures.get key = .ok procedure
    ∧ (meterHook machine.meter (procedure.requiredLevel call.input) key).run
        call.run.ctx call.run.journal = (.ok (), metered, noted)
    ∧ ((procedure.authorize call.input).run (call.run.overlay.resource ledger) metered noted).1
        = .error refusal

/-- The same call, made by the run that skips the authorizers. -/
inductive Call.Shadows : Call P R → Call P R → Prop
  | mk {op : OpSignature} {input : Input P} {offers : List (Except ExecutionError (ScanEntry P))}
      {run shadow : Run P R} (alike : run.Shadows shadow) :
      Shadows ⟨op, input, offers, run⟩ ⟨op, input, offers, shadow⟩

omit [ReducerState R] in
/-- Behind a gate that both runs fare alike at, a procedure does the same for
both. -/
theorem carryOut_shadows {procedure : Procedure P R}
    (blind : ∀ input state, (procedure.body input state).Blind) (ledger : Ledger P)
    {call shadow : Call P R} (alike : call.Shadows shadow)
    {gated gated' : Except ExecutionError Unit × (Context × Journal)}
    (same : gated.1 = gated'.1) (skipped : gated'.2.1 = gated.2.1.skipping) :
    (carryOut procedure ledger call gated).1 = (carryOut procedure ledger shadow gated').1
      ∧ (carryOut procedure ledger call gated).2.Shadows
          (carryOut procedure ledger shadow gated').2 := by
  obtain @⟨op, input, offers, run, shadow, alike⟩ := alike
  obtain ⟨journal', rfl⟩ := alike.exists_journal
  obtain ⟨result, passed, noted⟩ := gated
  obtain ⟨result', passed', noted'⟩ := gated'
  obtain rfl : result = result' := same
  obtain rfl : passed' = passed.skipping := skipped
  cases result with
  | error cause => exact ⟨rfl, rfl, rfl, rfl⟩
  | ok admitted =>
      -- both bodies start with nothing pulled and the same offers
      have start : BodyState.Shadows (P := P) ⟨offers, [], passed, noted⟩
          ⟨offers, [], passed.skipping, noted'⟩ := ⟨rfl, rfl, rfl⟩
      obtain ⟨same, ended⟩ := (blind input run.reduction.state).run_shadows
        (run.overlay.resource ledger) start
      dsimp only [carryOut]
      generalize (procedure.body input run.reduction.state).run (run.overlay.resource ledger)
        ⟨offers, [], passed, noted⟩ = ran at same ended ⊢
      generalize (procedure.body input run.reduction.state).run (run.overlay.resource ledger)
        ⟨offers, [], passed.skipping, noted'⟩ = ran' at same ended ⊢
      obtain ⟨next, final⟩ := ran
      obtain ⟨next', final'⟩ := ran'
      obtain rfl : next = next' := same
      obtain ⟨-, pulled, hctx⟩ := ended
      dsimp only at pulled hctx
      cases next with
      | error cause => exact ⟨rfl, rfl, rfl, hctx⟩
      | ok state => exact ⟨congrArg Except.ok pulled.symm, rfl, rfl, hctx⟩

/-- One call from both runs: either both succeed or fail alike, or the one
that asks the authorizer is refused. -/
theorem perform_shadows (blind : machine.Blind) (ledger : Ledger P) {call shadow : Call P R}
    (alike : call.Shadows shadow) :
    ((machine.perform ledger call).1 = (machine.perform ledger shadow).1
        ∧ (machine.perform ledger call).2.Shadows (machine.perform ledger shadow).2)
      ∨ ∃ refusal after, machine.Refuses ledger call refusal
          ∧ machine.perform ledger call = (.error (.unauthorized refusal), after) := by
  rw [perform_eq, perform_eq]
  have calls := alike
  obtain @⟨op, input, offers, run, shadow, alike⟩ := alike
  obtain ⟨journal', rfl⟩ := alike.exists_journal
  dsimp only
  cases found : machine.procedures.get ⟨reducerKind run.reduction.state, op⟩ with
  | error cause => exact .inl ⟨rfl, rfl, rfl, rfl⟩
  | ok procedure =>
      dsimp only
      rcases admit?_shadows blind procedure ⟨reducerKind run.reduction.state, op⟩ input
        (run.overlay.resource ledger) run.ctx run.journal journal' with
        ⟨same, skipped⟩ | ⟨metered, noted, refusal, hook, refused, gate⟩
      · exact .inl (carryOut_shadows (blind.body _ procedure found) ledger calls same skipped)
      · refine .inr ⟨refusal, ?_⟩
        generalize machine.admit? procedure ⟨reducerKind run.reduction.state, op⟩ input
          (run.overlay.resource ledger) run.ctx run.journal = gated at gate ⊢
        obtain ⟨result, passed, noted'⟩ := gated
        obtain rfl : result = _ := gate
        exact ⟨_, ⟨procedure, metered, noted, found, hook, refused⟩, rfl⟩

-- ==================================================================== a step

/-- Demands of the two runs, which differ in these runs alone. -/
inductive Demand.Shadows : Demand P R → Demand P R → Prop
  | fails (cause : ExecutionError) : Shadows (.fails cause) (.fails cause)
  | passes {after shadow : Run P R} (alike : after.Shadows shadow) :
      Shadows (.passes after) (.passes shadow)
  | signs : Shadows .signs .signs
  | calls {call shadow : Call P R} (alike : call.Shadows shadow) :
      Shadows (.calls call) (.calls shadow)

omit [ReducerState R] in
/-- Before the gate nothing looks at the context, so both runs demand the
same. -/
theorem demand_shadows (ledger : Ledger P) {run shadow : Run P R} (alike : run.Shadows shadow)
    (position : Nat) (instruction : Instruction) :
    (demand ledger position instruction run).Shadows
      (demand ledger position instruction shadow) := by
  obtain ⟨journal', rfl⟩ := alike.exists_journal
  unfold demand
  dsimp only
  split
  · exact .fails _
  · cases instruction with
    | syscall data => exact .calls (.mk ⟨rfl, rfl, rfl⟩)
    | read target =>
        dsimp only
        cases run.overlay.look ledger target with
        | error cause => exact .fails _
        | ok found => exact .calls (.mk ⟨rfl, rfl, rfl⟩)
    | readIndex index =>
        dsimp only
        split
        · exact .calls (.mk ⟨rfl, rfl, rfl⟩)
        · exact .fails _
    | downIndex index =>
        dsimp only
        split
        · exact .calls (.mk ⟨rfl, rfl, rfl⟩)
        · exact .fails _
    | up id encoding =>
        dsimp only
        cases ledger.format.decodeWhole encoding with
        | error cause => exact .fails _
        | ok object => exact .calls (.mk ⟨rfl, rfl, rfl⟩)
    | down target =>
        dsimp only
        cases run.overlay.take ledger target with
        | error cause => exact .fails _
        | ok found => exact .calls (.mk ⟨rfl, rfl, rfl⟩)
    | close =>
        dsimp only
        cases run.reduction.state with
        | none => exact .passes ⟨rfl, rfl, rfl⟩
        | some state => exact .calls (.mk ⟨rfl, rfl, rfl⟩)
    | sig => exact .signs
    | msg content => exact .passes ⟨rfl, rfl, rfl⟩
    | header version flags => exact .passes ⟨rfl, rfl, rfl⟩
    | unknown opcode => exact .fails _

omit [ReducerState R] in
/-- After a call nothing looks at the context either. -/
theorem conclude_shadows {run shadow : Run P R} (alike : run.Shadows shadow) (position : Nat)
    (instruction : Instruction) (kind : ReducerKind) (pulled : List (ScanEntry P)) :
    (conclude position instruction kind pulled run).1
        = (conclude position instruction kind pulled shadow).1
      ∧ (conclude position instruction kind pulled run).2.Shadows
          (conclude position instruction kind pulled shadow).2 := by
  obtain ⟨journal', rfl⟩ := alike.exists_journal
  cases instruction with
  | close =>
      dsimp only [conclude]
      split
      · exact ⟨rfl, rfl, rfl, rfl⟩
      · exact ⟨rfl, rfl, rfl, rfl⟩
  | _ => exact ⟨rfl, rfl, rfl, rfl⟩

omit [StateObject P] [ReducerState R] in
/-- A signature is counted alike, since neither hook nor budget depends on
the flag. -/
theorem countSig_shadows (blind : machine.Blind) {run shadow : Run P R}
    (alike : run.Shadows shadow) :
    (machine.countSig run).1 = (machine.countSig shadow).1
      ∧ (machine.countSig run).2.Shadows (machine.countSig shadow).2 := by
  obtain ⟨journal', rfl⟩ := alike.exists_journal
  have level : run.ctx.skipping.level = run.ctx.level := rfl
  unfold countSig
  dsimp only
  rw [level]
  by_cases hsystem : run.ctx.level = .system
  · rw [if_pos hsystem, if_pos hsystem]
    exact ⟨rfl, rfl, rfl, rfl⟩
  · rw [if_neg hsystem, if_neg hsystem]
    obtain ⟨same, shadow⟩ := blind.onSig.run_skipping run.ctx run.journal journal'
    generalize machine.meter.onSig.run run.ctx run.journal = metered at same shadow ⊢
    generalize machine.meter.onSig.run run.ctx.skipping journal' = metered' at same shadow ⊢
    obtain ⟨result, passed, noted⟩ := metered
    obtain ⟨result', passed', noted'⟩ := metered'
    obtain rfl : result = result' := same
    obtain rfl : passed' = passed.skipping := shadow
    cases result with
    | error cause => exact ⟨rfl, rfl, rfl, rfl⟩
    | ok admitted =>
        dsimp only
        rw [Context.spendSig_skipping]
        exact ⟨rfl, rfl, rfl, rfl⟩

/-- The authorizer of the procedure that an instruction calls refuses. -/
def RefusesAt (machine : Machine P R) (ledger : Ledger P) (position : Nat)
    (instruction : Instruction) (run : Run P R) (refusal : AuthorizationError) : Prop :=
  ∃ call, demand ledger position instruction run = .calls call
    ∧ machine.Refuses ledger call refusal

/-- One step of both runs: either both succeed or fail alike, or the one
that asks the authorizer is refused, with its reducer state as it was. -/
theorem step_shadows (blind : machine.Blind) (ledger : Ledger P) {run shadow : Run P R}
    (alike : run.Shadows shadow) (position : Nat) (instruction : Instruction) :
    ((machine.step ledger position instruction run).1
          = (machine.step ledger position instruction shadow).1
        ∧ (machine.step ledger position instruction run).2.Shadows
            (machine.step ledger position instruction shadow).2)
      ∨ ∃ refusal after, machine.RefusesAt ledger position instruction run refusal
          ∧ machine.step ledger position instruction run = (.error (.unauthorized refusal), after)
          ∧ after.reduction.state = run.reduction.state := by
  rw [step_eq, step_eq]
  have demanded := demands ledger position instruction run
  have corresponding := demand_shadows ledger alike position instruction
  unfold RefusesAt
  generalize demand ledger position instruction run = mine at demanded corresponding ⊢
  generalize demand ledger position instruction shadow = theirs at corresponding ⊢
  cases corresponding with
  | fails cause => exact .inl ⟨rfl, alike⟩
  | passes alike => exact .inl ⟨rfl, alike⟩
  | signs => exact .inl (countSig_shadows blind alike)
  | @calls call call' alike =>
      dsimp only [answer]
      rcases perform_shadows blind ledger alike with
        ⟨same, performed⟩ | ⟨refusal, after, refuses, failed⟩
      · -- the call fares alike in both
        obtain ⟨alike⟩ := alike
        obtain ⟨journal', rfl⟩ := alike.exists_journal
        dsimp only at same performed ⊢
        generalize machine.perform ledger _ = mine at same performed ⊢
        generalize machine.perform ledger _ = theirs at same performed ⊢
        obtain ⟨result, after⟩ := mine
        obtain ⟨result', after'⟩ := theirs
        obtain rfl : result = result' := same
        cases result with
        | error cause => exact .inl ⟨rfl, performed⟩
        | ok pulled => exact .inl (conclude_shadows performed _ _ _ _)
      · -- it is refused to the one that asks
        cases demanded with
        | calls made =>
            refine .inr ⟨refusal, after, ⟨call, rfl, refuses⟩, ?_, ?_⟩
            · rw [failed]
            · rw [(reduce_error failed).2, made.state]

-- ===================================================================== a run

/-- Both runs reach an instruction, in lock step, and there the authorizer
refuses the one that asks it, with the reducer state both have. -/
structure RefusedAt (machine : Machine P R) (store : CommittedStore) (ctx : Context)
    (instructions : List Instruction) (position : Nat) (state : Option R)
    (refusal : AuthorizationError) (instruction : Instruction) (run shadow : Run P R) : Prop where
  here : instructions[position]? = some instruction
  reached : machine.Reached store ctx instructions position run
  skipped : machine.Reached store ctx.skipping instructions position shadow
  alike : run.Shadows shadow
  state : state = shadow.reduction.state
  refuses : machine.RefusesAt ⟨store, machine.format⟩ position instruction run refusal

/-- Walks of both runs: either they end alike, or the one that asks is
refused on the way. -/
theorem steps_shadows (blind : machine.Blind) (store : CommittedStore) {ctx : Context}
    {instructions : List Instruction} :
    ∀ {walked : List Instruction} {position : Nat} {run shadow : Run P R},
      machine.Reached store ctx instructions position run →
      machine.Reached store ctx.skipping instructions position shadow →
      walked <+: instructions.drop position → run.Shadows shadow →
      ((machine.steps ⟨store, machine.format⟩ position walked run).1
            = (machine.steps ⟨store, machine.format⟩ position walked shadow).1
          ∧ (machine.steps ⟨store, machine.format⟩ position walked run).2.Shadows
              (machine.steps ⟨store, machine.format⟩ position walked shadow).2)
        ∨ ∃ index refusal after instruction before beforeShadow,
            machine.steps ⟨store, machine.format⟩ position walked run
                = (.error (index, .unauthorized refusal), after)
              ∧ machine.RefusedAt store ctx instructions index after.reduction.state refusal
                  instruction before beforeShadow := by
  intro walked
  induction walked with
  | nil => exact fun _ _ _ alike => .inl ⟨rfl, alike⟩
  | cons instruction walked ih =>
      intro position run shadow reached skipped hprefix alike
      obtain ⟨here, hprefix⟩ := Reached.next_of_walk hprefix
      rw [steps, steps]
      rcases step_shadows blind ⟨store, machine.format⟩ alike position instruction with
        ⟨same, stepped⟩ | ⟨refusal, after, refuses, failed, kept⟩
      · rcases mine : machine.step ⟨store, machine.format⟩ position instruction run
          with ⟨result, after⟩
        rcases theirs : machine.step ⟨store, machine.format⟩ position instruction shadow
          with ⟨result', after'⟩
        rw [mine, theirs] at same stepped
        obtain rfl : result = result' := same
        cases result with
        | error cause => exact .inl ⟨rfl, stepped⟩
        | ok done => exact ih (.step reached here mine) (.step skipped here theirs) hprefix stepped
      · -- an authorizer refuses here, with the state the run had before
        refine .inr ⟨position, refusal, after, instruction, run, shadow, ?_, ?_⟩
        · rw [failed]
        · exact ⟨here, reached, skipped, alike, by rw [kept, alike.reduction], refuses⟩

-- ================================================================ transactions

/-- With the authorizers and without, a transaction comes to the same, but
where one of them refuses it. -/
theorem verify_shadows (blind : machine.Blind) (store : CommittedStore) (ctx : Context)
    (instructions : List Instruction) :
    ((machine.verify store ctx instructions).outcome
          = (machine.verify store ctx.skipping instructions).outcome
        ∧ (machine.verify store ctx.skipping instructions).ctx
          = (machine.verify store ctx instructions).ctx.skipping)
      ∨ ∃ index state refusal instruction run shadow,
          (machine.verify store ctx instructions).outcome
              = .error ⟨index, state, .unauthorized refusal⟩
            ∧ machine.RefusedAt store ctx instructions index state refusal instruction run
                shadow := by
  obtain ⟨same, begun⟩ := blind.onStart.run_skipping ctx .blank .blank
  rcases hook : machine.meter.onStart.run ctx .blank with ⟨result, start, noted⟩
  rcases hook' : machine.meter.onStart.run ctx.skipping .blank with ⟨result', start', noted'⟩
  rw [hook, hook'] at same begun
  obtain rfl : result = result' := same
  obtain rfl : start' = start.skipping := begun
  unfold verify
  rw [hook, hook']
  cases result with
  | error cause => exact .inl ⟨rfl, rfl⟩
  | ok started =>
      dsimp only
      have whole : instructions <+: instructions.drop 0 := List.prefix_rfl
      rcases steps_shadows blind store (.start hook) (.start hook') whole ⟨rfl, rfl, rfl⟩ with
        ⟨same, ended⟩ | ⟨index, refusal, after, instruction, run, shadow, failed, refused⟩
      · -- no authorizer refused on the way: both come to the same end
        generalize machine.steps _ 0 instructions ⟨.empty, .start, start, noted⟩ = mine
          at same ended ⊢
        generalize machine.steps _ 0 instructions ⟨.empty, .start, start.skipping, noted'⟩ = theirs
          at same ended ⊢
        obtain ⟨result, after⟩ := mine
        obtain ⟨result', after'⟩ := theirs
        obtain rfl : result = result' := same
        obtain ⟨journal', rfl⟩ := ended.exists_journal
        refine .inl ?_
        cases result with
        | error failure => exact ⟨rfl, rfl⟩
        | ok done =>
            dsimp only
            split
            · exact ⟨rfl, rfl⟩
            · rw [Context.settle_skipping]
              rcases after.ctx.settle with ⟨cause | ⟨⟩, settled⟩
              · exact ⟨rfl, rfl⟩
              · exact ⟨rfl, rfl⟩
      · refine .inr ⟨index, after.reduction.state, refusal, instruction, run, shadow, ?_, refused⟩
        rw [failed]

/-- Authorization only restricts. What is accepted with the authorizers
asked is accepted without, with the same groups and the same context; and
what is accepted only without is rejected for an authorizer's refusal. -/
theorem authorization_only_restricts (blind : machine.Blind) (store : CommittedStore)
    (ctx : Context) (instructions : List Instruction) :
    (∀ groups, (machine.verify store ctx instructions).outcome = .ok groups →
        (machine.verify store ctx.skipping instructions).outcome = .ok groups
          ∧ (machine.verify store ctx.skipping instructions).ctx
            = (machine.verify store ctx instructions).ctx.skipping)
      ∧ ∀ groups rejection,
          (machine.verify store ctx.skipping instructions).outcome = .ok groups →
          (machine.verify store ctx instructions).outcome = .error rejection →
          ∃ refusal instruction run shadow, rejection.cause = .unauthorized refusal
            ∧ machine.RefusedAt store ctx instructions rejection.index rejection.state refusal
                instruction run shadow := by
  rcases machine.verify_shadows blind store ctx instructions with
    ⟨same, ctxs⟩ | ⟨index, state, refusal, instruction, run, shadow, rejected, refused⟩
  · constructor
    · intro groups accepted
      exact ⟨same ▸ accepted, ctxs⟩
    · intro groups rejection accepted rejected
      rw [same, accepted] at rejected
      cases rejected
  · constructor
    · intro groups accepted
      rw [rejected] at accepted
      cases accepted
    · intro groups rejection accepted failed
      rw [rejected] at failed
      cases failed
      exact ⟨refusal, instruction, run, shadow, rfl, refused⟩

end Machine

namespace Token

/-- A user's transaction, signed with a key that owns nothing. -/
def strangerContext : Context := (Context.fresh default .user 0).setKey ⟨[8]⟩

/-- The meter of the free machine does nothing, and a token script has no way
to ask. -/
theorem freeMachine_blind : freeMachine.Blind where
  onStart := trivial
  onUser _ := trivial
  onSuperUser _ := trivial
  onSig := trivial
  body := by
    intro key procedure found input state
    obtain ⟨rule, -, -, rfl⟩ := Rule.exists_of_get found
    exact rule.blind_body input state

end Token

namespace Machine

open Token

/-- The owner of some tokens hands them on, whether asked or not. A stranger
does so only unasked; asked, the first instruction is refused. -/
theorem stranger_refused_when_asked :
    freeMachine.Blind
      ∧ (∃ groups, (freeMachine.verify oneHolding.toStore userContext handOn).outcome = .ok groups
          ∧ (freeMachine.verify oneHolding.toStore userContext.skipping handOn).outcome
            = .ok groups)
      ∧ ∃ rejection, (freeMachine.verify oneHolding.toStore strangerContext handOn).outcome
            = .error rejection
          ∧ (freeMachine.verify oneHolding.toStore strangerContext.skipping handOn).outcome.isOk
          ∧ rejection.index = 0
          ∧ ∃ refusal instruction run shadow, rejection.cause = .unauthorized refusal
              ∧ freeMachine.RefusedAt oneHolding.toStore strangerContext handOn rejection.index
                  rejection.state refusal instruction run shadow := by
  refine ⟨freeMachine_blind, ?_, ?_⟩
  · -- the owner is admitted, asked or not
    have one : (freeMachine.verify oneHolding.toStore userContext
        handOn).outcome.toOption.map (·.length) = some 1 := by
      decide +kernel
    obtain ⟨groups, accepted, -⟩ := verify_ok_of_toOption_map one
    obtain ⟨unasked, -⟩ := (authorization_only_restricts freeMachine_blind oneHolding.toStore
      userContext handOn).1 groups accepted
    exact ⟨groups, accepted, unasked⟩
  · -- the stranger is admitted only if not asked
    have one : (freeMachine.verify oneHolding.toStore strangerContext.skipping
        handOn).outcome.toOption.map (·.length) = some 1 := by
      decide +kernel
    have refused : ((freeMachine.verify oneHolding.toStore strangerContext handOn).outcome.map
        fun _ => ()) = .error ⟨0, none, .unauthorized ⟨"tokens not signed by owner"⟩⟩ := by
      decide +kernel
    obtain ⟨groups, accepted, -⟩ := verify_ok_of_toOption_map one
    cases rejected : (freeMachine.verify oneHolding.toStore strangerContext handOn).outcome with
    | ok groups =>
        rw [rejected] at refused
        cases refused
    | error rejection =>
        have asked := (authorization_only_restricts freeMachine_blind oneHolding.toStore
          strangerContext handOn).2 groups rejection accepted rejected
        rw [rejected] at refused
        cases refused
        exact ⟨_, rfl, by rw [accepted]; rfl, rfl, asked⟩

end Machine

end LedgerCore
