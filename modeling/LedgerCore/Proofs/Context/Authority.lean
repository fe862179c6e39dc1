/-
What a transaction may do, and what it cannot change about that. Two of a
context's fields decide which procedures run, the level and the key, and a
third whether their authorizers are asked.

# What is kept

- No operation changes the level, and a key that is there stays there
  (`Within`), so that what a context does not permit it never will
  (`Within.permits`). This holds of every hook of a meter and of every body
  of a procedure, since they act by operations only: what the operations
  keep that a program may perform, the program keeps (`Body.only_keeps`), and
  what no operation breaks (`Kept`), no program does.
- No operation reads or changes the flag that skips the authorizers. A
  program that does not ask for it either runs alike with the flag and
  without (`Context.run_skipping`, `Body.Blind.run_shadows`).
-/
import LedgerCore.Procedure
import LedgerCore.Proofs.Context.Frame

namespace LedgerCore

namespace Program

variable {E : Effects} {α β σ τ : Type}

-- ===================================================== programs by what they ask

/-- Whatever the answers, the program performs such operations only. -/
def Only (allowed : E.Op → Prop) : Program E α → Prop
  | done _ => True
  | perform op next => allowed op ∧ ∀ answer, (next answer).Only allowed

theorem Only.bind {allowed : E.Op → Prop} {p : Program E α} {next : α → Program E β}
    (first : p.Only allowed) (rest : ∀ a, (next a).Only allowed) :
    (p.bind next).Only allowed := by
  induction p with
  | done a => exact rest a
  | perform op go ih => exact ⟨first.1, fun answer => ih answer (first.2 answer)⟩

theorem Only.mono {allowed more : E.Op → Prop} {p : Program E α} (only : p.Only allowed)
    (h : ∀ op, allowed op → more op) : p.Only more := by
  induction p with
  | done a => exact trivial
  | perform op next ih => exact ⟨h op only.1, fun answer => ih answer (only.2 answer)⟩

/-- Where everything is allowed, every program will do. -/
theorem only_of_forall {allowed : E.Op → Prop} (all : ∀ op, allowed op) (p : Program E α) :
    p.Only allowed := by
  induction p with
  | done a => exact trivial
  | perform op next ih => exact ⟨all op, ih⟩

/-- What every allowed operation keeps, a whole program keeps. -/
theorem Only.run_keeps {allowed : E.Op → Prop} {I : σ → Prop}
    {handle : (op : E.Op) → σ → E.Answer op × σ}
    (keeps : ∀ op s, allowed op → I s → I (handle op s).2) {p : Program E α}
    (only : p.Only allowed) {s : σ} (h : I s) : I (p.run handle s).2 := by
  induction p generalizing s with
  | done a => exact h
  | perform op next ih => exact ih _ (only.2 _) (keeps op s only.1 h)

/-- Two handlers that answer the allowed operations alike, on states that
correspond and go on to correspond, run a program alike. -/
theorem Only.run_corresponds {allowed : E.Op → Prop} {r : σ → τ → Prop}
    {handle : (op : E.Op) → σ → E.Answer op × σ} {handle' : (op : E.Op) → τ → E.Answer op × τ}
    (alike : ∀ op s t, allowed op → r s t →
      (handle op s).1 = (handle' op t).1 ∧ r (handle op s).2 (handle' op t).2)
    {p : Program E α} (only : p.Only allowed) {s : σ} {t : τ} (start : r s t) :
    (p.run handle s).1 = (p.run handle' t).1
      ∧ r (p.run handle s).2 (p.run handle' t).2 := by
  induction p generalizing s t with
  | done a => exact ⟨rfl, start⟩
  | perform op next ih =>
      obtain ⟨same, after⟩ := alike op s t only.1 start
      simp only [run_perform]
      rw [← same]
      exact ih _ (only.2 _) after

end Program

namespace Context

-- ================================================================ permission

/-- A procedure that needs this level may run here. -/
def Permits (ctx : Context) (required : PermissionLevel) : Prop :=
  required ≤ ctx.level ∧ (ctx.key.isSome → required < .superUser)

/-- The check asks for a level at least as high, and for a key except where
nobody does; a call is permitted exactly if it passes. -/
theorem checkPermission_ok_iff {ctx : Context} {required : PermissionLevel} :
    ctx.checkPermission required = .ok () ↔ ctx.Permits required := by
  unfold checkPermission Permits
  constructor
  · intro h
    split at h
    · cases h
    · next hlevel =>
        split at h
        · cases h
        · next hkey =>
            refine ⟨Nat.not_lt.mp hlevel, fun held => ?_⟩
            exact Nat.not_le.mp fun hle => hkey ⟨hle, held⟩
  · rintro ⟨hlevel, hkey⟩
    have hbelow : ¬ ctx.level < required := Nat.not_lt.mpr hlevel
    have hunsigned : ¬ (PermissionLevel.superUser ≤ required ∧ ctx.key.isSome) :=
      fun ⟨hle, held⟩ => Nat.not_lt.mpr hle (hkey held)
    rw [if_neg hbelow, if_neg hunsigned]

/-- A context has the level of another, and a key if that one has. -/
structure Within (ctx start : Context) : Prop where
  level : ctx.level = start.level
  key : start.key.isSome → ctx.key.isSome

theorem Within.refl (ctx : Context) : ctx.Within ctx := ⟨rfl, id⟩

theorem Within.trans {ctx mid start : Context} (h : ctx.Within mid) (h' : mid.Within start) :
    ctx.Within start :=
  ⟨h.level.trans h'.level, h.key ∘ h'.key⟩

/-- What is permitted within was permitted at the start. -/
theorem Within.permits {ctx start : Context} {required : PermissionLevel} (h : ctx.Within start)
    (permits : ctx.Permits required) : start.Permits required :=
  ⟨h.level ▸ permits.1, fun held => permits.2 (h.key held)⟩

/-- A property that no operation breaks. -/
def Kept (I : Context → Prop) : Prop := ∀ (op : ContextOp) ctx, I ctx → I (op.run ctx).2

/-- No operation changes the level or removes the key. -/
theorem within_kept (start : Context) : Kept (·.Within start) :=
  fun op ctx within => Within.trans ⟨(frame_run op ctx).level, (frame_run op ctx).key⟩ within

-- ============================================================ without asking

/-- The same context, with its authorizers skipped. -/
def skipping (ctx : Context) : Context := { ctx with skipAuthorization := true }

/-- What an operation answers, and what it leaves, without the authorizers. -/
def Outcome.skipping {α : Type} (outcome : Outcome α) : Outcome α :=
  (outcome.1, outcome.2.skipping)

theorem silent_skipping (outcome : Outcome Unit) :
    ContextOp.run.silent outcome.skipping = (ContextOp.run.silent outcome).skipping := by
  rcases outcome with ⟨⟨⟩ | cause, after⟩ <;> rfl

/-- What is taken from the reserve does not depend on the flag. -/
theorem debit_skipping (ctx : Context) (amount : Amount) :
    ctx.skipping.debit amount = (ctx.debit amount).skipping := by
  unfold debit
  dsimp only [skipping]
  cases ctx.reserve.sub? amount with
  | none => rfl
  | some reserve => rfl

/-- What is deposited does not depend on it either. -/
theorem depositFeeReserve_skipping (ctx : Context) (resource : ResourceAddr) (amount : Amount) :
    ctx.skipping.depositFeeReserve resource amount
      = (ctx.depositFeeReserve resource amount).skipping := by
  unfold depositFeeReserve
  rw [apply_ite Outcome.skipping, apply_ite Outcome.skipping]
  refine ite_congr rfl (fun _ => rfl) fun _ => ite_congr rfl (fun _ => rfl) fun _ => ?_
  dsimp only [skipping]
  cases ctx.reserve.add? amount with
  | none => rfl
  | some reserve => rfl

/-- A fee is charged once, whatever the flag says. -/
theorem chargeOneTimeFee_skipping (ctx : Context) (fee : Txn → Except ExecutionError Amount) :
    ctx.skipping.chargeOneTimeFee fee = (ctx.chargeOneTimeFee fee).skipping := by
  unfold chargeOneTimeFee
  rw [apply_ite Outcome.skipping]
  refine ite_congr rfl (fun _ => rfl) fun _ => ?_
  dsimp only [skipping]
  cases fee ctx.txn with
  | error cause => rfl
  | ok amount =>
      have paid := debit_skipping ctx amount
      dsimp only [skipping] at paid ⊢
      rw [paid]
      rcases ctx.debit amount with ⟨cause | ⟨⟩, after⟩
      · rfl
      · rfl

/-- A loan is made whatever the flag says. -/
theorem addSystemLoan_skipping (ctx : Context) (amount : Amount) :
    ctx.skipping.addSystemLoan amount = (ctx.addSystemLoan amount).skipping := by
  unfold addSystemLoan
  dsimp only [skipping]
  cases ctx.systemLoan.add? amount with
  | none => rfl
  | some loan =>
      cases ctx.reserve.add? amount with
      | none => rfl
      | some reserve => rfl

theorem payOffLoan_skipping (ctx : Context) :
    ctx.skipping.payOffLoan = ctx.payOffLoan.skipping := by
  unfold payOffLoan
  rw [apply_ite Outcome.skipping, apply_ite Outcome.skipping]
  exact ite_congr rfl (fun _ => rfl) fun _ => ite_congr rfl (fun _ => rfl) fun _ => rfl

theorem settle_skipping (ctx : Context) : ctx.skipping.settle = ctx.settle.skipping := by
  unfold settle
  rw [payOffLoan_skipping]
  rcases ctx.payOffLoan with ⟨cause | ⟨⟩, paid⟩
  · rfl
  · dsimp only
    rw [apply_ite Outcome.skipping]
    exact ite_congr rfl (fun _ => rfl) fun _ => rfl

theorem spendSig_skipping (ctx : Context) : ctx.skipping.spendSig = ctx.spendSig.skipping := by
  rcases ctx with ⟨_, _, _, _, _, _, _, _, _, _ | left, _, _⟩
  · rfl
  · rfl

/-- No operation reads or changes the flag. -/
theorem run_skipping (op : ContextOp) (ctx : Context) :
    op.run ctx.skipping = (op.run ctx).skipping := by
  cases op with
  | deposit resource amount =>
      rw [ContextOp.run, ContextOp.run, depositFeeReserve_skipping, silent_skipping]
  | withdraw amount =>
      rw [ContextOp.run, ContextOp.run, withdrawFeeReserve, withdrawFeeReserve, debit_skipping]
      rcases ctx.debit amount with ⟨cause | ⟨⟩, after⟩
      · rfl
      · rfl
  | charge amount =>
      rw [ContextOp.run, ContextOp.run, Context.charge, Context.charge, debit_skipping,
        silent_skipping]
  | chargeOnce fee =>
      rw [ContextOp.run, ContextOp.run, chargeOneTimeFee_skipping, silent_skipping]
  | lend amount =>
      rw [ContextOp.run, ContextOp.run, addSystemLoan_skipping, silent_skipping]
  | payOffLoan => rw [ContextOp.run, ContextOp.run, payOffLoan_skipping, silent_skipping]
  | settle => rw [ContextOp.run, ContextOp.run, settle_skipping, silent_skipping]
  | spendSig => rw [ContextOp.run, ContextOp.run, spendSig_skipping, silent_skipping]
  | checkPermission level =>
      exact silent_skipping (ctx.checkPermission level, ctx)
  | checkAllocation => exact silent_skipping (ctx.checkAllocation, ctx)
  | setKey key => rfl
  | setAllocationDisabled disabled => rfl
  | emit event => rfl
  | takeEvents => rfl
  | txnSize => rfl

end Context

-- ============================================================= hooks and bodies

/-- What the context operations keep that a hook may perform, the hook keeps. -/
theorem MeterHook.only_keeps {I : Context → Prop} {allowed : MeterOp → Prop}
    (kept : ∀ op ctx, allowed (.act op) → I ctx → I (op.run ctx).2) {hook : MeterHook}
    (only : Program.Only (E := meterEffects) allowed hook) {ctx : Context} (journal : Journal)
    (h : I ctx) : I (hook.run ctx journal).2.1 := by
  refine Program.Only.run_keeps (I := fun state : Context × Journal => I state.1) ?_ only
    (s := (ctx, journal)) h
  rintro op ⟨seen, journal⟩ asked holds
  cases op with
  | act op => exact kept op seen asked holds
  | view => exact holds
  | skips => exact holds
  | note line => exact holds

/-- What no operation breaks, no hook breaks. -/
theorem MeterHook.run_keeps {I : Context → Prop} (kept : Context.Kept I) (hook : MeterHook)
    {ctx : Context} (journal : Journal) (h : I ctx) : I (hook.run ctx journal).2.1 := by
  have all : Program.Only (E := meterEffects) (fun _ => True) hook :=
    Program.only_of_forall (fun _ => trivial) hook
  exact only_keeps (fun op ctx _ => kept op ctx) all journal h

/-- No hook changes the level or removes the key. -/
theorem MeterHook.within_run (hook : MeterHook) (ctx : Context) (journal : Journal) :
    (hook.run ctx journal).2.1.Within ctx :=
  hook.run_keeps (Context.within_kept ctx) journal (.refl ctx)

/-- A hook that never asks whether authorization is skipped. -/
def MeterHook.Blind (hook : MeterHook) : Prop :=
  Program.Only (E := meterEffects) (· ≠ .skips) hook

/-- A hook that does not ask for the flag answers alike with the flag set,
and leaves the same context but for the flag. -/
theorem MeterHook.Blind.run_skipping {hook : MeterHook} (blind : hook.Blind) (ctx : Context)
    (journal journal' : Journal) :
    (hook.run ctx journal).1 = (hook.run ctx.skipping journal').1
      ∧ (hook.run ctx.skipping journal').2.1 = (hook.run ctx journal).2.1.skipping := by
  refine Program.Only.run_corresponds
    (r := fun (state state' : Context × Journal) => state'.1 = state.1.skipping) ?_ blind
    (s := (ctx, journal)) (t := (ctx.skipping, journal')) rfl
  rintro op ⟨seen, journal⟩ ⟨seen', journal'⟩ asked same
  obtain rfl : seen' = seen.skipping := same
  cases op with
  | act op =>
      dsimp only [MeterOp.handle]
      rw [Context.run_skipping]
      exact ⟨rfl, rfl⟩
  | view => exact ⟨rfl, rfl⟩
  | skips => exact absurd rfl asked
  | note line => exact ⟨rfl, rfl⟩

variable {P R : Type}

/-- What the context operations keep that a body may perform, the body keeps. -/
theorem Body.only_keeps {I : Context → Prop} {allowed : BodyOp → Prop}
    (kept : ∀ op ctx, allowed (.act op) → I ctx → I (op.run ctx).2) {body : Body P R}
    (only : Program.Only (E := bodyEffects P) allowed body)
    (resource : ResourceAddr → Except ExecutionError ResourceDefinition) (start : BodyState P)
    (h : I start.ctx) : I (body.run resource start).2.ctx := by
  refine Program.Only.run_keeps (I := fun state : BodyState P => I state.ctx) ?_ only h
  intro op state asked holds
  cases op with
  | act op => exact kept op state.ctx asked holds
  | pull =>
      -- whatever is offered next, the context is not looked at
      obtain ⟨offers, pulled, ctx, journal⟩ := state
      rcases offers with _ | ⟨cause | entry, rest⟩
      · exact holds
      · exact holds
      · exact holds
  | view => exact holds
  | skips => exact holds
  | resource addr => exact holds
  | pending => exact holds
  | note line => exact holds

/-- What no operation breaks, no body breaks. -/
theorem Body.run_keeps {I : Context → Prop} (kept : Context.Kept I) (body : Body P R)
    (resource : ResourceAddr → Except ExecutionError ResourceDefinition) (start : BodyState P)
    (h : I start.ctx) : I (body.run resource start).2.ctx := by
  have all : Program.Only (E := bodyEffects P) (fun _ => True) body :=
    Program.only_of_forall (fun _ => trivial) body
  exact only_keeps (fun op ctx _ => kept op ctx) all resource start h

/-- A body that never asks whether authorization is skipped. -/
def Body.Blind (body : Body P R) : Prop :=
  Program.Only (E := bodyEffects P) (· ≠ .skips) body

/-- Two states of a body that differ in the flag and the journal at most. -/
structure BodyState.Shadows (state shadow : BodyState P) : Prop where
  offers : shadow.offers = state.offers
  pulled : shadow.pulled = state.pulled
  ctx : shadow.ctx = state.ctx.skipping

/-- A body that does not ask for the flag answers alike, and pulls the same. -/
theorem Body.Blind.run_shadows {body : Body P R} (blind : body.Blind)
    (resource : ResourceAddr → Except ExecutionError ResourceDefinition)
    {start shadow : BodyState P} (alike : start.Shadows shadow) :
    (body.run resource start).1 = (body.run resource shadow).1
      ∧ (body.run resource start).2.Shadows (body.run resource shadow).2 := by
  refine Program.Only.run_corresponds (r := BodyState.Shadows) ?_ blind alike
  rintro op ⟨offers, pulled, ctx, journal⟩ ⟨offers', pulled', ctx', journal'⟩ asked
    ⟨hoffers, hpulled, hctx⟩
  dsimp only at hoffers hpulled hctx
  subst hoffers hpulled hctx
  cases op with
  | act op =>
      dsimp only [BodyOp.handle]
      rw [Context.run_skipping]
      exact ⟨rfl, rfl, rfl, rfl⟩
  | pull =>
      rcases offers' with _ | ⟨cause | entry, rest⟩
      · exact ⟨rfl, rfl, rfl, rfl⟩
      · exact ⟨rfl, rfl, rfl, rfl⟩
      · exact ⟨rfl, rfl, rfl, rfl⟩
  | skips => exact absurd rfl asked
  | view => exact ⟨rfl, rfl, rfl, rfl⟩
  | resource addr => exact ⟨rfl, rfl, rfl, rfl⟩
  | pending => exact ⟨rfl, rfl, rfl, rfl⟩
  | note line => exact ⟨rfl, rfl, rfl, rfl⟩

end LedgerCore
