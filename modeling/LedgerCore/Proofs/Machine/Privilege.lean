/-
Privileged rules do not reach unprivileged transactions. Two tables with the
same keys may differ as they like in what a rule does on inputs that need a
level the context does not permit; `verify` cannot tell them apart.

# The argument

Every call passes the gate of `Machine.admit?`, which compares the level
the input needs with the level and key of the context at that time. These
only ever get tighter (`Context.Within`), so the gate lets through what the
context permits at the start and nothing else. On such inputs the two
tables agree; on the others both refuse before they look at authorizer or
body (`admit?_congr`). Nothing else in a step consults the rules
(`AlikeIn.verify_eq`).
-/
import LedgerCore.Proofs.Machine.Alike
import LedgerCore.Proofs.Machine.Consumption
import LedgerCore.Proofs.Machine.Kept

namespace LedgerCore

variable {P R : Type}

-- ================================================================== agreement

/-- Two rules ask for the same levels and run alike on every input that
needs a level the context permits. -/
structure Procedure.AgreesFor (ctx : Context) (p q : Procedure P R) : Prop where
  level : p.requiredLevel = q.requiredLevel
  authorize : ∀ input, ctx.Permits (p.requiredLevel input) → ∀ resource seen journal,
    (p.authorize input).run resource seen journal = (q.authorize input).run resource seen journal
  body : ∀ input, ctx.Permits (p.requiredLevel input) → ∀ state resource start,
    (p.body input state).run resource start = (q.body input state).run resource start

/-- Two tables with the same keys whose rules agree key by key. -/
structure Procedures.AgreeFor (ctx : Context) (first second : Procedures P R) : Prop where
  keys : ∀ key, first.contains key = second.contains key
  rules : ∀ key p q, first.get key = .ok p → second.get key = .ok q → p.AgreesFor ctx q

theorem Procedure.AgreesFor.refl (ctx : Context) (p : Procedure P R) : p.AgreesFor ctx p :=
  ⟨rfl, fun _ _ _ _ _ => rfl, fun _ _ _ _ _ => rfl⟩

/-- A rule no input of which is permitted agrees with any rule of its levels. -/
theorem Procedure.agreesFor_of_not_permits {ctx : Context} {p q : Procedure P R}
    (level : p.requiredLevel = q.requiredLevel)
    (never : ∀ input, ¬ ctx.Permits (p.requiredLevel input)) : p.AgreesFor ctx q :=
  ⟨level, fun input permits => absurd permits (never input),
    fun input permits => absurd permits (never input)⟩

namespace Procedures

/-- A table has a rule for a key that it contains. -/
theorem get_of_contains {procedures : Procedures P R} {key : ProcedureKey}
    (h : procedures.contains key = true) : ∃ p, procedures.get key = .ok p := by
  rw [contains, Std.ExtTreeMap.contains_eq_isSome_getElem?, Option.isSome_iff_exists] at h
  obtain ⟨p, hp⟩ := h
  exact ⟨p, by rw [get, hp]⟩

/-- For any other key it misses a procedure. -/
theorem get_of_not_contains {procedures : Procedures P R} {key : ProcedureKey}
    (h : procedures.contains key = false) :
    procedures.get key = .error (.missingProcedure key) := by
  rw [contains, Std.ExtTreeMap.contains_eq_isSome_getElem?, Option.isSome_eq_false_iff,
    Option.isNone_iff_eq_none] at h
  rw [get, h]

/-- Of two tables with the same keys, either both lack a key or neither does. -/
theorem get_cases {first second : Procedures P R}
    (keys : ∀ key, first.contains key = second.contains key) (key : ProcedureKey) :
    (∃ cause, first.get key = .error cause ∧ second.get key = .error cause)
      ∨ ∃ p q, first.get key = .ok p ∧ second.get key = .ok q := by
  cases known : first.contains key with
  | false =>
      exact .inl ⟨_, get_of_not_contains known, get_of_not_contains (keys key ▸ known)⟩
  | true =>
      obtain ⟨p, hp⟩ := get_of_contains known
      obtain ⟨q, hq⟩ := get_of_contains (keys key ▸ known)
      exact .inr ⟨p, q, hp, hq⟩

/-- Either both tables lack a key, or they have agreeing rules for it. -/
theorem AgreeFor.cases {ctx : Context} {first second : Procedures P R}
    (agree : first.AgreeFor ctx second) (key : ProcedureKey) :
    (∃ cause, first.get key = .error cause ∧ second.get key = .error cause)
      ∨ ∃ p q, first.get key = .ok p ∧ second.get key = .ok q ∧ p.AgreesFor ctx q := by
  rcases get_cases agree.keys key with missing | ⟨p, q, hp, hq⟩
  · exact .inl missing
  · exact .inr ⟨p, q, hp, hq, agree.rules key p q hp hq⟩

/-- Agreeing rules registered under one key in one table make agreeing tables. -/
theorem agreeFor_register {ctx : Context} {p q : Procedure P R} (procedures : Procedures P R)
    (key : ProcedureKey) (agrees : p.AgreesFor ctx q) :
    (procedures.register key p).AgreeFor ctx (procedures.register key q) := by
  constructor
  · intro other
    simp only [contains, register, Std.ExtTreeMap.contains_insert]
  · intro other p' q' hp hq
    rw [get_register] at hp hq
    by_cases hkey : key = other
    · rw [if_pos hkey] at hp hq
      cases hp
      cases hq
      exact agrees
    · rw [if_neg hkey] at hp hq
      rw [hp] at hq
      cases hq
      exact .refl ctx p'

end Procedures

namespace Machine

variable [StateObject P] [ReducerState R] {machine : Machine P R} {ledger : Ledger P}
  {start : Context}

-- ===================================================== two tables side by side

variable {other : Procedures P R}

omit [StateObject P] [ReducerState R] in
/-- The gate treats agreeing rules alike: what it refuses it refuses before
it looks further, and what it lets through was permitted at the start. -/
theorem admit?_congr {p q : Procedure P R} (agrees : p.AgreesFor start q) {ctx : Context}
    (within : ctx.Within start) (key : ProcedureKey) (input : Input P)
    (resource : ResourceAddr → Except ExecutionError ResourceDefinition) (journal : Journal) :
    { machine with procedures := other }.admit? q key input resource ctx journal
      = machine.admit? p key input resource ctx journal := by
  unfold admit?
  rw [← agrees.level]
  dsimp only
  split
  · rfl
  · next permitted =>
      have permits := within.permits (Context.checkPermission_ok_iff.mp permitted)
      simp only [agrees.authorize input permits]

/-- A call comes to the same under either table: where the gate lets it
through, it was permitted, and for what is permitted the bodies agree. -/
theorem perform_congr (agree : machine.procedures.AgreeFor start other) {call : Call P R}
    (within : call.run.ctx.Within start) :
    { machine with procedures := other }.perform ledger call = machine.perform ledger call := by
  rw [perform_eq, perform_eq]
  rcases agree.cases ⟨reducerKind call.run.reduction.state, call.op⟩ with
    ⟨cause, hp, hq⟩ | ⟨p, q, hp, hq, agrees⟩
  · rw [hp, hq]
  · rw [hp, hq]
    dsimp only
    rw [admit?_congr agrees within]
    rcases admitted : machine.admit? p _ _ _ _ _ with ⟨cause | ⟨⟩, ctx, journal⟩
    · rfl
    · have permits := within.permits
        (Context.checkPermission_ok_iff.mp (checkPermission_of_admitted admitted))
      dsimp only [carryOut]
      rw [agrees.body _ permits]

/-- A machine with agreeing rules acts alike in what the context permits. -/
theorem alikeIn_of_agreeFor (agree : machine.procedures.AgreeFor start other) :
    machine.AlikeIn { machine with procedures := other } ledger (·.Within start) where
  perform _ within := perform_congr agree within
  countSig _ _ := rfl
  kept position instruction run within :=
    (machine.within_step ledger position instruction run).trans within

-- ================================================================ transactions

/-- Rules on what a context does not permit have no say in its transactions:
tables that agree on the rest give the same verdict, with the same groups or
the same rejection, the same context and the same journal. -/
theorem verify_eq_of_agreeFor (machine : Machine P R) (other : Procedures P R)
    (store : CommittedStore) (ctx : Context) (instructions : List Instruction)
    (agree : machine.procedures.AgreeFor ctx other) :
    { machine with procedures := other }.verify store ctx instructions
      = machine.verify store ctx instructions :=
  (alikeIn_of_agreeFor agree).verify_eq rfl rfl
    (machine.meter.onStart.within_run ctx .blank) instructions

end Machine

namespace Token

/-- The key of the rule that creates tokens out of nothing. -/
def mintKey : ProcedureKey := ⟨.void, .substate .up tokensTag⟩

/-- A privileged rule for the creation of tokens out of nothing. -/
def mint (steps : List Step) : Procedure Object Holding :=
  Rule.toProcedure { free .up tokensTag steps with level := .superUser }

/-- The token ledger with such a rule of its own. -/
def minting (steps : List Step) : Machine Object Holding :=
  { freeMachine with procedures := freeMachine.procedures.register mintKey (mint steps) }

/-- A transaction of a user, signed with the key of owner 7. -/
def userContext : Context := (Context.fresh default .user 0).setKey ⟨[7]⟩

/-- Hands on the five committed tokens. -/
def handOn : List Instruction :=
  [.down (.committed (.stored [1])), .up (.stored [8]) fiveTokens, .close]

/-- No user may call such a rule, so to a user it makes no difference what
its steps are. -/
theorem mint_agreesFor {ctx : Context} (user : ctx.level = .user) (steps steps' : List Step) :
    (mint steps).AgreesFor ctx (mint steps') := by
  refine Procedure.agreesFor_of_not_permits rfl fun input permits => ?_
  have hle : PermissionLevel.superUser ≤ ctx.level := permits.1
  rw [user] at hle
  exact absurd hle (by decide)

end Token

namespace Machine

open Token

/-- Whether the system may mint at all makes no difference to a user, whose
transaction goes through either way. -/
theorem mint_rule_unseen_by_users :
    (minting [.fail "closed"]).verify oneHolding.toStore userContext handOn
        = (minting []).verify oneHolding.toStore userContext handOn
      ∧ ((minting []).verify oneHolding.toStore userContext handOn).outcome.isOk = true
      ∧ ((minting []).verify oneHolding.toStore systemContext
          [.up (.stored [5]) fiveTokens, .close]).outcome.isOk = true
      ∧ ((minting [.fail "closed"]).verify oneHolding.toStore systemContext
          [.up (.stored [5]) fiveTokens, .close]).outcome.isOk = false :=
  ⟨verify_eq_of_agreeFor (minting []) (minting [.fail "closed"]).procedures oneHolding.toStore
      userContext handOn (Procedures.agreeFor_register _ mintKey (mint_agreesFor rfl _ _)),
    by decide +kernel, by decide +kernel, by decide +kernel⟩

end Machine

end LedgerCore
