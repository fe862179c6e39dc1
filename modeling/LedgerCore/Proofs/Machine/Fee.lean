/-
What a transaction pays. Under the meter of valid settings a transaction
that is verified has deposited its fee, no more and no less, if it called a
user procedure by anything but a system call; and nothing otherwise.

# The argument

Where bodies touch the books by deposits only (`Procedures.OnlyDeposit`),
the reserve and what the meter has collected always make up what was
deposited (`Account.balance`), and the meter has collected exactly if a
procedure to be paid for was called (`Account.charged`). A step of the
machine keeps that (`account_of_step`): of what is called, the meter looks
at level and operation only, and once it has collected it does not again.
Settling then asks for an empty reserve.

The fee itself fits into an amount, since a size and a fee per byte fit into
64 bits each; so the meter fails for want of a reserve, but never because a
sum overflows. -/
import LedgerCore.Proofs.Machine.Failure
import LedgerCore.Proofs.Machine.Kept
import LedgerCore.Proofs.Token.Conservation
import LedgerCore.Proofs.Token.Plain
import LedgerCore.Settings

namespace LedgerCore

-- ======================================================================= the fee

namespace EngineSettings

variable {settings : EngineSettings}

/-- What a transaction has to pay under these settings, if it has to. -/
def fee (settings : EngineSettings) (txn : Txn) : Nat :=
  settings.fixedFee.toNat + settings.feePerByte.toNat * txn.size

/-- The fee policy of valid settings: either none is due, or the meter
charges once what is due, as far as that is an amount. -/
inductive Policy (settings : EngineSettings) : Meter → Prop
  | free (nothing : ∀ txn, settings.fee txn = 0) : Policy settings .free
  | once {charge : Txn → Except ExecutionError Amount}
      (exact : ∀ txn amount, charge txn = .ok amount → amount.toNat = settings.fee txn)
      (fits : ∀ txn, txn.size < UInt64.size → ∃ amount, charge txn = .ok amount) :
      Policy settings (.chargingOnce charge)

/-- The meter that valid settings choose charges what is due. Settings with
both fees are not valid, so one of the two terms of the fee is zero. -/
theorem policy_meter (valid : settings.validate = .ok ()) : settings.Policy settings.meter := by
  unfold validate at valid
  split at valid
  · cases valid
  · next exclusive =>
      unfold meter
      by_cases fixed : 0 < settings.fixedFee
      · rw [if_pos fixed]
        -- a fixed fee excludes one for each byte
        have none_per_byte : settings.feePerByte.toNat = 0 := by
          have free : ¬ 0 < settings.feePerByte := fun charged => exclusive ⟨fixed, charged⟩
          rw [UInt64.lt_iff_toNat_lt] at free
          exact Nat.eq_zero_of_not_pos free
        refine .once (fun txn amount charged => ?_) fun txn _ => ⟨_, rfl⟩
        cases charged
        rw [fee, none_per_byte, Nat.zero_mul, Nat.add_zero]
        rfl
      · -- none is fixed: it is by size, or none at all
        have none_fixed : settings.fixedFee.toNat = 0 := by
          rw [UInt64.lt_iff_toNat_lt] at fixed
          exact Nat.eq_zero_of_not_pos fixed
        rw [if_neg fixed]
        by_cases perByte : 0 < settings.feePerByte
        · rw [if_pos perByte]
          refine .once (fun txn amount charged => ?_) fun txn size => ?_
          · unfold Meter.sizeFee at charged
            split at charged
            · next product =>
                cases charged
                rw [fee, none_fixed, Nat.zero_add]
                exact Amount.mul?_eq_some_iff.mp product
            · cases charged
          · -- two numbers of 64 bits have a product that is an amount
            have bound : settings.feePerByte.toNat * txn.size < UInt64.size * UInt64.size :=
              Nat.mul_lt_mul'' settings.feePerByte.toNat_lt size
            have product : (feeAmount settings.feePerByte).mul? txn.size
                = some ⟨settings.feePerByte.toNat * txn.size, bound⟩ :=
              Amount.mul?_eq_some_iff.mpr rfl
            exact ⟨_, by rw [Meter.sizeFee, product]⟩
        · rw [if_neg perByte]
          refine .free fun txn => ?_
          rw [UInt64.lt_iff_toNat_lt] at perByte
          rw [fee, none_fixed, Nat.eq_zero_of_not_pos perByte, Nat.zero_mul]

end EngineSettings

-- ================================================================= the account

namespace Context

variable {fee : Nat} {called due : Prop} {ctx after : Context}

/-- What was paid in so far. -/
def paidIn (ctx : Context) : Nat := (ctx.feeDeposit.getD .zero).toNat

/-- What a meter with this fee has collected so far. -/
def collected (fee : Nat) (ctx : Context) : Nat := if ctx.oneTimeFeeCharged then fee else 0

/-- Nothing happened to the books but a deposit. -/
structure Deposits (ctx after : Context) : Prop where
  loan : after.systemLoan = ctx.systemLoan
  charged : after.oneTimeFeeCharged = ctx.oneTimeFeeCharged
  together : after.reserve.toNat + ctx.paidIn = ctx.reserve.toNat + after.paidIn

/-- The fee was collected if it was due, unless it was before. -/
structure Collects (fee : Nat) (due : Prop) (ctx after : Context) : Prop where
  loan : after.systemLoan = ctx.systemLoan
  deposit : after.paidIn = ctx.paidIn
  spent : after.reserve.toNat + after.collected fee = ctx.reserve.toNat + ctx.collected fee
  charged : fee ≠ 0 → (after.oneTimeFeeCharged = true ↔ ctx.oneTimeFeeCharged = true ∨ due)

/-- How the books stand when a fee was due (`called`) or was not: the reserve
and what was collected make up what was deposited. -/
structure Account (fee : Nat) (called : Prop) (ctx : Context) : Prop where
  loan : ctx.systemLoan = .zero
  balance : ctx.reserve.toNat + ctx.collected fee = ctx.paidIn
  charged : fee ≠ 0 → (ctx.oneTimeFeeCharged = true ↔ called)

theorem Deposits.refl (ctx : Context) : ctx.Deposits ctx := ⟨rfl, rfl, rfl⟩

theorem Deposits.trans {mid : Context} (first : ctx.Deposits mid) (second : mid.Deposits after) :
    ctx.Deposits after := by
  have h := first.together
  have h' := second.together
  exact ⟨second.loan.trans first.loan, second.charged.trans first.charged, by omega⟩

/-- A deposit goes to both sides of the balance. -/
theorem Account.deposit (account : Account fee called ctx) (deposits : ctx.Deposits after) :
    Account fee called after where
  loan := deposits.loan.trans account.loan
  balance := by
    have balance := account.balance
    have together := deposits.together
    unfold collected at balance ⊢
    rw [deposits.charged]
    omega
  charged paid := deposits.charged ▸ account.charged paid

/-- What is collected moves from the reserve to the other term of the sum,
and from then on the fee counts as collected. -/
theorem Account.collect (account : Account fee called ctx) (collects : Collects fee due ctx after) :
    Account fee (called ∨ due) after where
  loan := collects.loan.trans account.loan
  balance := by rw [collects.spent, account.balance, collects.deposit]
  charged paid := by rw [collects.charged paid, account.charged paid]

theorem Account.congr {other : Prop} (account : Account fee called ctx) (h : called ↔ other) :
    Account fee other ctx :=
  ⟨account.loan, account.balance, fun paid => (account.charged paid).trans h⟩

/-- Books that settle leave a deposit of what was due. -/
theorem Account.settled (account : Account fee called ctx) (h : ctx.settle = (.ok (), after)) :
    (called → after.paidIn = fee) ∧ (¬ called → after.paidIn = 0) := by
  -- books settle with nothing left in the reserve
  have reserve : ctx.reserve.toNat = 0 := by
    unfold settle payOffLoan at h
    rw [if_pos (Amount.isZero_iff.mpr account.loan)] at h
    dsimp only at h
    split at h
    · next empty => exact congrArg Amount.toNat (Amount.isZero_iff.mp empty)
    · cases h
  have same : after.paidIn = ctx.paidIn := by
    have kept := (frame_run .settle ctx).deposit nofun
    rw [ContextOp.run, silent_snd, h] at kept
    unfold paidIn
    rw [kept]
  have balance := account.balance
  rw [reserve, Nat.zero_add] at balance
  rw [same, ← balance]
  unfold collected
  rcases Nat.eq_zero_or_pos fee with rfl | paid
  · rw [ite_self]
    exact ⟨fun _ => rfl, fun _ => rfl⟩
  · have charged := account.charged (Nat.pos_iff_ne_zero.mp paid)
    exact ⟨fun h => if_pos (charged.mpr h), fun h => if_neg fun c => h (charged.mp c)⟩

/-- A deposit does to the books what its name says, and one that fails
nothing. -/
theorem deposits_of_depositFeeReserve (ctx : Context) (resource : ResourceAddr) (amount : Amount) :
    ctx.Deposits (ctx.depositFeeReserve resource amount).2 := by
  rcases paid : ctx.depositFeeReserve resource amount with ⟨cause | ⟨⟩, after⟩
  · rw [depositFeeReserve_of_error paid]
    exact .refl ctx
  · obtain ⟨first, reserve, sum, rfl⟩ := depositFeeReserve_ok paid
    refine ⟨rfl, rfl, ?_⟩
    unfold paidIn
    rw [first]
    dsimp only [Option.getD]
    rw [sum, Amount.toNat_zero, Nat.add_zero]

/-- A charge that succeeds has collected the fee, now or at an earlier call. -/
theorem collects_of_chargeOneTimeFee {charge : Txn → Except ExecutionError Amount}
    (exact : ∀ amount, charge ctx.txn = .ok amount → amount.toNat = fee) (owed : due)
    (h : ctx.chargeOneTimeFee charge = (.ok (), after)) : Collects fee due ctx after := by
  rcases chargeOneTimeFee_ok h with ⟨before, rfl⟩ | ⟨first, amount, priced, covered, rfl⟩
  · -- charged before, so nothing is taken now
    exact ⟨rfl, rfl, rfl, fun _ => iff_of_true before (.inl before)⟩
  · refine ⟨rfl, rfl, ?_, fun _ => iff_of_true rfl (.inr owed)⟩
    unfold collected
    rw [first, ← exact amount priced]
    rw [Amount.le_def] at covered
    simp only [Amount.toNat_monus, if_true, Bool.false_eq_true, if_false]
    omega

end Context

-- ============================================================== bodies and hooks

variable {P R : Type}

/-- Operations that do nothing to the books, or deposit. -/
def ContextOp.Depositing (op : ContextOp) : Prop :=
  ∀ ctx : Context, ctx.systemLoan = .zero → ctx.Deposits (op.run ctx).2

/-- Bodies that succeed did nothing to the books but deposit. -/
def Procedures.OnlyDeposit (procedures : Procedures P R) : Prop :=
  ∀ key procedure, procedures.get key = .ok procedure →
    ∀ input state resource start next final, start.ctx.systemLoan = .zero →
      (procedure.body input state).run resource start = (.ok next, final) →
      start.ctx.Deposits final.ctx

/-- A body that asks for deposits only does nothing else to the books,
whether it succeeds or fails. Where there was no loan there is none, so that
the next operation may rely on it. -/
theorem Body.run_deposits {body : Body P R}
    (only : Program.Only (E := bodyEffects P) (fun op => ∀ act, op = .act act → act.Depositing)
      body)
    (resource : ResourceAddr → Except ExecutionError ResourceDefinition) {start : BodyState P}
    (loan : start.ctx.systemLoan = .zero) : start.ctx.Deposits (body.run resource start).2.ctx :=
  Body.only_keeps (I := start.ctx.Deposits)
    (fun op ctx asked kept => kept.trans (asked op rfl ctx (kept.loan.trans loan)))
    only resource start (.refl start.ctx)

/-- Rules whose bodies perform such operations only do nothing else. -/
theorem Procedures.onlyDeposit_of_only {procedures : Procedures P R}
    (only : ∀ key procedure, procedures.get key = .ok procedure → ∀ input state,
      Program.Only (E := bodyEffects P) (fun op => ∀ act, op = .act act → act.Depositing)
        (procedure.body input state)) : procedures.OnlyDeposit := by
  intro key procedure found input state resource start next final loan ran
  have deposits := Body.run_deposits (only key procedure found input state) resource loan
  rwa [ran] at deposits

/-- A hook of one operation lets a call pass only if the operation
succeeded. -/
theorem MeterHook.run_act_ok {op : ContextOp} {ctx after : Context} {journal noted : Journal}
    (h : (MeterHook.act op).run ctx journal = (.ok (), after, noted)) :
    ∃ answer, op.run ctx = (.ok answer, after) := by
  unfold MeterHook.act MeterHook.run at h
  rw [Program.run_perform] at h
  dsimp only [MeterOp.handle] at h
  rcases ran : op.run ctx with ⟨cause | answer, left⟩
  · rw [ran] at h
    cases h
  · rw [ran] at h
    cases h
    exact ⟨answer, rfl⟩

/-- A hook of one operation refuses a call for the reason the operation
gives. -/
theorem MeterHook.run_act_error {op : ContextOp} {ctx after : Context} {journal noted : Journal}
    {cause : ExecutionError}
    (h : (MeterHook.act op).run ctx journal = (.error cause, after, noted)) :
    op.run ctx = (.error cause, after) := by
  unfold MeterHook.act MeterHook.run at h
  rw [Program.run_perform] at h
  dsimp only [MeterOp.handle] at h
  rcases ran : op.run ctx with ⟨failed | answer, left⟩
  · rw [ran] at h
    cases h
    rfl
  · rw [ran] at h
    cases h

namespace EngineSettings

variable {settings : EngineSettings} {meter : Meter}

theorem Policy.onStart (policy : settings.Policy meter) : meter.onStart = .nothing := by
  cases policy <;> rfl

theorem Policy.onSig (policy : settings.Policy meter) : meter.onSig = .nothing := by
  cases policy <;> rfl

/-- At the gate nothing happens where no fee is due, or no fee at all; where
one is due, it is charged. -/
inductive Policy.Hooked (settings : EngineSettings) (due : Prop) : MeterHook → Prop
  | idle (free : due → ∀ txn, settings.fee txn = 0) : Hooked settings due .nothing
  | charge {charge : Txn → Except ExecutionError Amount} (owed : due)
      (exact : ∀ txn amount, charge txn = .ok amount → amount.toNat = settings.fee txn)
      (fits : ∀ txn, txn.size < UInt64.size → ∃ amount, charge txn = .ok amount) :
      Hooked settings due (.act (.chargeOnce charge))

/-- Of the three levels, the meter looks at procedures for users only, and
of those not at what a system call reaches. -/
theorem Policy.hooked (policy : settings.Policy meter) (required : PermissionLevel)
    (key : ProcedureKey) :
    Policy.Hooked settings (required = .user ∧ key.op.op ≠ .syscall)
      (Machine.meterHook meter required key) := by
  cases policy with
  | free nothing =>
      cases required with
      | user => exact .idle fun _ => nothing
      | superUser => exact .idle fun _ => nothing
      | system => exact .idle fun _ => nothing
  | @once charge exact fits =>
      cases required with
      | user =>
          dsimp only [Machine.meterHook, Meter.chargingOnce]
          by_cases exempt : key.op.op = .syscall
          · rw [if_pos exempt]
            exact .idle fun due => absurd exempt due.2
          · rw [if_neg exempt]
            exact .charge ⟨rfl, exempt⟩ exact fits
      | superUser => exact .idle fun due => nomatch due.1
      | system => exact .idle fun due => nomatch due.1

/-- A hook that lets a call pass has collected what was due. -/
theorem Policy.Hooked.collects {due : Prop} {hook : MeterHook}
    (hooked : Policy.Hooked settings due hook) {ctx after : Context} {journal noted : Journal}
    (h : hook.run ctx journal = (.ok (), after, noted)) :
    Context.Collects (settings.fee ctx.txn) due ctx after := by
  cases hooked with
  | idle free =>
      cases h
      refine ⟨rfl, rfl, rfl, fun paid => ⟨.inl, fun h => h.resolve_right fun owed => ?_⟩⟩
      exact paid (free owed _)
  | charge owed exact fits =>
      obtain ⟨answer, ran⟩ := MeterHook.run_act_ok h
      exact Context.collects_of_chargeOneTimeFee (exact ctx.txn) owed
        (Context.silent_eq_ok_iff.mp ran).1

/-- A hook that refuses a call has found the reserve too small. -/
theorem Policy.Hooked.depleted {due : Prop} {hook : MeterHook}
    (hooked : Policy.Hooked settings due hook) {ctx after : Context} {journal noted : Journal}
    {cause : ExecutionError} (size : ctx.txn.size < UInt64.size)
    (h : hook.run ctx journal = (.error cause, after, noted)) :
    ∃ amount, cause = .depletedFeeReserve amount ctx.reserve := by
  cases hooked with
  | idle free => cases h
  | charge owed exact fits =>
      have ran := Context.silent_eq_error_iff.mp (MeterHook.run_act_error h)
      obtain ⟨amount, priced⟩ := fits ctx.txn size
      -- a charge fails for its price, which fits, or for the reserve
      unfold Context.chargeOneTimeFee at ran
      rw [priced] at ran
      split at ran
      · cases ran
      · dsimp only at ran
        split at ran
        · cases ran
        · next unpaid =>
            cases ran
            exact ⟨amount, (Context.debit_of_error unpaid).2⟩

end EngineSettings

namespace Machine

variable [StateObject P] [ReducerState R] {machine : Machine P R} {ledger : Ledger P}
  {position : Nat} {instruction : Instruction} {run after : Run P R} {settings : EngineSettings}

-- ========================================================================= steps

/-- The instruction calls a user procedure, and not by a system call. -/
def CallsUser (machine : Machine P R) (ledger : Ledger P) (position : Nat)
    (instruction : Instruction) (run : Run P R) : Prop :=
  ∃ call procedure, demand ledger position instruction run = .calls call
    ∧ machine.procedures.get call.key = .ok procedure
    ∧ procedure.requiredLevel call.input = .user ∧ call.op.op ≠ .syscall

/-- Of an instruction that demands a call, whether it calls a user procedure
is a matter of that call. -/
theorem callsUser_iff {call : Call P R} {procedure : Procedure P R}
    (demanded : demand ledger position instruction run = .calls call)
    (found : machine.procedures.get call.key = .ok procedure) :
    procedure.requiredLevel call.input = .user ∧ call.op.op ≠ .syscall
      ↔ machine.CallsUser ledger position instruction run := by
  constructor
  · intro due
    exact ⟨call, procedure, demanded, found, due⟩
  · rintro ⟨other, procedure', demanded', found', due⟩
    -- one demand makes one call, and one key has one procedure
    rw [demanded] at demanded'
    cases demanded'
    rw [found] at found'
    cases found'
    exact due

instance : Decidable (machine.CallsUser ledger position instruction run) :=
  match asked : demand ledger position instruction run with
  | .fails _ | .passes _ | .signs => .isFalse fun ⟨_, _, demanded, _⟩ => by
      rw [asked] at demanded
      cases demanded
  | .calls call =>
      match found : machine.procedures.get call.key with
      | .ok procedure => decidable_of_iff _ (callsUser_iff asked found)
      | .error cause => .isFalse fun ⟨other, procedure, demanded, found', _⟩ => by
          rw [asked] at demanded
          cases demanded
          rw [found] at found'
          cases found'

/-- The call that is asked for, if one is. -/
def Demand.call? : Demand P R → Option (Call P R)
  | .calls call => some call
  | _ => none

/-- An instruction that demands no call calls no user procedure. -/
theorem not_callsUser (h : (demand ledger position instruction run : Demand P R).call? = none) :
    ¬ machine.CallsUser ledger position instruction run := by
  rintro ⟨call, _, demanded, _⟩
  rw [demanded] at h
  cases h

omit [StateObject P] [ReducerState R] in
/-- Signatures are free of charge. -/
theorem deposits_of_countSig (policy : settings.Policy machine.meter)
    (h : machine.countSig run = (.ok (), after)) : run.ctx.Deposits after.ctx := by
  unfold countSig at h
  rw [policy.onSig] at h
  split at h
  · cases h
    exact .refl _
  · split at h
    · cases h
    · next ctx journal hook =>
        cases hook
        -- only the budget is touched
        obtain ⟨left, spent⟩ := run.ctx.spendSig_snd
        rcases ran : run.ctx.spendSig with ⟨result, ctx⟩
        rw [ran] at h spent
        cases h
        rw [show ctx = _ from spent]
        exact ⟨rfl, rfl, rfl⟩

/-- A step that succeeds keeps the account, with the fee being due from then
on if the step calls a procedure it is due for. -/
theorem account_of_step (policy : settings.Policy machine.meter)
    (only : machine.procedures.OnlyDeposit) (metered : run.ctx.level ≠ .system) {called : Prop}
    (account : run.ctx.Account (settings.fee run.ctx.txn) called)
    (h : machine.step ledger position instruction run = (.ok (), after)) :
    after.ctx.Account (settings.fee run.ctx.txn)
      (called ∨ machine.CallsUser ledger position instruction run) := by
  have succeeds := step_ok h
  generalize asked : demand ledger position instruction run = demanded at succeeds
  cases succeeds with
  | closes void => exact account.congr (or_iff_left (not_callsUser (by rw [asked]; rfl))).symm
  | passes instruction =>
      exact account.congr (or_iff_left (not_callsUser (by rw [asked]; rfl))).symm
  | signs counted =>
      exact (account.deposit (deposits_of_countSig policy counted)).congr
        (or_iff_left (not_callsUser (by rw [asked]; rfl))).symm
  | @calls instruction call pulled left _ made performed concluded =>
      have same := conclude_ctx position instruction (reducerKind call.run.reduction.state)
        pulled left
      rw [concluded] at same
      obtain ⟨procedure, admitted, noted, next, final, found, gate, ran, -, rfl⟩ :=
        perform_admitted performed
      rw [made.ctx] at gate
      -- first the meter at the gate, then the body
      obtain ⟨hooked, hook⟩ := hook_of_admitted metered gate
      have collected := account.collect ((policy.hooked _ _).collects hook)
      have deposited := collected.deposit
        (only _ procedure found _ _ _ _ _ _ collected.loan ran)
      rw [show after.ctx = final.ctx from same]
      exact deposited.congr (or_congr_right (callsUser_iff asked found))

-- ========================================================================== runs

variable {store : CommittedStore} {ctx : Context} {instructions : List Instruction}

/-- Somewhere before a position a user procedure was called, and not by a
system call. -/
def UserCalledBefore (machine : Machine P R) (store : CommittedStore) (ctx : Context)
    (instructions : List Instruction) (position : Nat) : Prop :=
  ∃ earlier instruction run, earlier < position
    ∧ machine.Reached store ctx instructions earlier run
    ∧ instructions[earlier]? = some instruction
    ∧ machine.CallsUser ⟨store, machine.format⟩ earlier instruction run

/-- A transaction calls a user procedure, and not by a system call. -/
def UserCalled (machine : Machine P R) (store : CommittedStore) (ctx : Context)
    (instructions : List Instruction) : Prop :=
  ∃ position instruction run, machine.Reached store ctx instructions position run
    ∧ instructions[position]? = some instruction
    ∧ machine.CallsUser ⟨store, machine.format⟩ position instruction run

/-- One more instruction before a position adds the call of that
instruction. -/
theorem userCalledBefore_succ (reached : machine.Reached store ctx instructions position run)
    (here : instructions[position]? = some instruction) :
    machine.UserCalledBefore store ctx instructions position
        ∨ machine.CallsUser ⟨store, machine.format⟩ position instruction run
      ↔ machine.UserCalledBefore store ctx instructions (position + 1) := by
  constructor
  · rintro (⟨earlier, other, before, hlt, reached', here', calls⟩ | calls)
    · exact ⟨earlier, other, before, Nat.lt_succ_of_lt hlt, reached', here', calls⟩
    · exact ⟨position, instruction, run, Nat.lt_succ_self position, reached, here, calls⟩
  · rintro ⟨earlier, other, before, hlt, reached', here', calls⟩
    rcases Nat.lt_succ_iff_lt_or_eq.mp hlt with hlt | rfl
    · exact .inl ⟨earlier, other, before, hlt, reached', here', calls⟩
    · -- at the position itself there is only the run that was reached
      cases reached.unique reached'
      cases here.symm.trans here'
      exact .inr calls

/-- Behind the last instruction, everything is before. -/
theorem userCalledBefore_length :
    machine.UserCalledBefore store ctx instructions instructions.length
      ↔ machine.UserCalled store ctx instructions := by
  constructor
  · rintro ⟨position, instruction, run, -, called⟩
    exact ⟨position, instruction, run, called⟩
  · rintro ⟨position, instruction, run, reached, here, calls⟩
    obtain ⟨hlt, -⟩ := List.getElem?_eq_some_iff.mp here
    exact ⟨position, instruction, run, hlt, reached, here, calls⟩

/-- Wherever a run comes to, the account stands as the calls on the way ask. -/
theorem Reached.account (policy : settings.Policy machine.meter)
    (only : machine.procedures.OnlyDeposit) (metered : ctx.level ≠ .system)
    (fresh : ctx.Account (settings.fee ctx.txn) False)
    (reached : machine.Reached store ctx instructions position run) :
    run.ctx.Account (settings.fee ctx.txn)
      (machine.UserCalledBefore store ctx instructions position) := by
  induction reached with
  | start hook =>
      rw [policy.onStart] at hook
      cases hook
      refine fresh.congr ⟨False.elim, ?_⟩
      rintro ⟨earlier, _, _, hlt, -⟩
      exact absurd hlt (Nat.not_lt_zero earlier)
  | @step position instruction run after reached here applied ih =>
      have txn : run.ctx.txn = ctx.txn := reached.keeps_ctx (Context.txn_kept ctx.txn) rfl
      have level : run.ctx.level = ctx.level := reached.keeps_ctx (Context.level_kept ctx.level) rfl
      rw [← txn] at ih ⊢
      exact (account_of_step policy only (level ▸ metered) ih applied).congr
        (userCalledBefore_succ reached here)

/-- The meter stops a transaction for want of a reserve only. -/
theorem MeterStops.depleted {cause : ExecutionError} (policy : settings.Policy machine.meter)
    (size : ctx.txn.size < UInt64.size) (stops : machine.MeterStops store ctx instructions cause) :
    ∃ requested available, cause = .depletedFeeReserve requested available := by
  cases stops with
  | start hook =>
      rw [policy.onStart] at hook
      cases hook
  | signature reached here hook =>
      rw [policy.onSig] at hook
      cases hook
  | @call position instruction run call procedure after noted reached here demanded found hook =>
      -- the meter is shown the context as the step found it
      have same : call.run.ctx = run.ctx := by
        have made := demands ⟨store, machine.format⟩ position instruction run
        rw [demanded] at made
        cases made with
        | calls made => exact made.ctx
      have txn : call.run.ctx.txn = ctx.txn := by
        rw [same]
        exact reached.keeps_ctx (Context.txn_kept ctx.txn) rfl
      obtain ⟨amount, rfl⟩ := (policy.hooked _ _).depleted (txn ▸ size) hook
      exact ⟨amount, call.run.ctx.reserve, rfl⟩

end Machine

-- ================================================================== transactions

namespace EngineSettings

variable [StateObject P] [ReducerState R]

/-- The machine of these settings. -/
def machine (settings : EngineSettings) (procedures : Procedures P R)
    (format : SubstateFormat P) : Machine P R :=
  ⟨procedures, format, settings.meter⟩

/-- A transaction that is verified has paid exactly its fee. Where a user
procedure was called, and not by a system call, what was deposited is the
fee by the settings, and otherwise it is nothing. And whatever becomes of a
transaction, its fee is never too large for the meter, its length being one
of 64 bits: a rejection that says so is not the meter's. -/
theorem pays_exact_fee (settings : EngineSettings) (valid : settings.validate = .ok ())
    (procedures : Procedures P R) (only : procedures.OnlyDeposit) (format : SubstateFormat P)
    (store : CommittedStore) (txn : Txn) (level : PermissionLevel) (metered : level ≠ .system)
    (instructions : List Instruction) :
    (∀ groups, ((settings.machine procedures format).verify store (settings.context txn level)
          instructions).outcome = .ok groups →
        ((settings.machine procedures format).UserCalled store (settings.context txn level)
            instructions →
          ((settings.machine procedures format).verify store (settings.context txn level)
            instructions).ctx.paidIn = settings.fee txn)
        ∧ (¬ (settings.machine procedures format).UserCalled store (settings.context txn level)
            instructions →
          ((settings.machine procedures format).verify store (settings.context txn level)
            instructions).ctx.paidIn = 0))
      ∧ (txn.payload.length < UInt64.size →
        ¬ (settings.machine procedures format).MeterStops store (settings.context txn level)
            instructions .amountOverflow
        ∧ ∀ rejection, ((settings.machine procedures format).verify store
              (settings.context txn level) instructions).outcome = .error rejection →
            rejection.cause = .meter .amountOverflow →
            (settings.machine procedures format).LedgerStops store (settings.context txn level)
              instructions (.meter .amountOverflow)) := by
  have policy : settings.Policy (settings.machine procedures format).meter := policy_meter valid
  have fresh : (settings.context txn level).Account (settings.fee txn) False :=
    ⟨rfl, rfl, fun _ => iff_of_false Bool.false_ne_true id⟩
  refine ⟨fun groups accepted => ?_, fun size => ?_⟩
  · -- what is accepted was settled, so the account is even
    obtain ⟨run, after, reached, -, -, settle, verdict⟩ := Machine.settled_of_verify_ok accepted
    have account := reached.account policy only metered fresh
    rw [verdict]
    exact (account.congr Machine.userCalledBefore_length).settled settle
  · have never : ¬ (settings.machine procedures format).MeterStops store
        (settings.context txn level) instructions .amountOverflow := by
      intro stops
      have small : (settings.context txn level).txn.size < UInt64.size := size
      obtain ⟨requested, available, overflow⟩ := stops.depleted policy small
      cases overflow
    refine ⟨never, fun rejection rejected overflow => ?_⟩
    exact (Machine.meterStops_of_rejected rejected overflow).resolve_left never

end EngineSettings

namespace Token

/-- The plain rules touch the books by deposits only. -/
theorem plainRules_onlyDeposit : (Procedures.ofList plainRules).OnlyDeposit := by
  refine Procedures.onlyDeposit_of_only fun key procedure found input state => ?_
  refine Program.Only.mono (Plain.plainRules_ask input state found) ?_
  rintro _ asked act rfl ctx -
  cases act with
  | deposit resource amount =>
      rw [ContextOp.run, Context.silent_snd]
      exact Context.deposits_of_depositFeeReserve ctx resource amount
  | emit event => exact ⟨rfl, rfl, rfl⟩
  | checkAllocation =>
      rw [ContextOp.run, Context.silent_snd]
      exact .refl ctx
  | _ => cases asked

/-- Two subunits for each byte. -/
def byteFee : EngineSettings := ⟨50, 0, 2, .native⟩

/-- A transaction of three bytes. -/
def threeBytes : Txn := ⟨Hash.zero, [1, 2, 3]⟩

/-- Pays in six subunits and looks at the committed tokens. -/
def payAndRead : List Instruction :=
  [.syscall [0, 0, 0, 0, 0, 0, 0, 0, 6], .read (.committed (.stored [1])), .close]

/-- To look at tokens costs six subunits at two for each of three bytes, and
six were paid in; the deposit alone would have cost nothing, and so it is
refused. -/
theorem reading_costs_six :
    byteFee.validate = .ok ()
      ∧ ((byteFee.machine (.ofList plainRules) format).verify oneHolding.toStore
          (byteFee.context threeBytes .user) payAndRead).ctx.paidIn = 6
      ∧ ¬ (byteFee.machine (.ofList plainRules) format).MeterStops oneHolding.toStore
          (byteFee.context threeBytes .user) payAndRead .amountOverflow
      ∧ ((byteFee.machine (.ofList plainRules) format).verify oneHolding.toStore
          (byteFee.context threeBytes .user) (payAndRead.take 1)).outcome.isOk = false := by
  obtain ⟨pays, never⟩ := EngineSettings.pays_exact_fee byteFee rfl (.ofList plainRules)
    plainRules_onlyDeposit format oneHolding.toStore threeBytes .user (by decide) payAndRead
  refine ⟨rfl, ?_, (never (by decide)).1, by decide +kernel⟩
  -- the syscall and the read are of one group
  have one : ((byteFee.machine (.ofList plainRules) format).verify oneHolding.toStore
      (byteFee.context threeBytes .user) payAndRead).outcome.toOption.map (·.length) = some 1 := by
    decide +kernel
  obtain ⟨groups, accepted, -⟩ := Machine.verify_ok_of_toOption_map one
  let start : Run Object Flow := ⟨.empty, .start, byteFee.context threeBytes .user, .blank⟩
  let paying := (byteFee.machine (.ofList plainRules) format).steps
    ⟨oneHolding.toStore, format⟩ 0 (payAndRead.take 1) start
  have paid : paying.1 = .ok () := by decide +kernel
  have reached : (byteFee.machine (.ofList plainRules) format).Reached oneHolding.toStore
      (byteFee.context threeBytes .user) payAndRead 1 paying.2 :=
    Machine.reached_of_walk (by decide) rfl paid
  -- the read is what is paid for
  have calls : (byteFee.machine (.ofList plainRules) format).CallsUser
      ⟨oneHolding.toStore, format⟩ 1 (.read (.committed (.stored [1]))) paying.2 := by
    decide +kernel
  exact (pays groups accepted).1 ⟨1, _, paying.2, reached, rfl, calls⟩

end Token

end LedgerCore
