/-
What the operations of a context do to its books. A loan and its repayment
move reserve and loan by the same amount (`Context.Shifts`); a deposit, a
withdrawal and a charge move the reserve by just what they answer. A failing
operation leaves the whole context as it is, with the two exceptions that
`eq_of_error` names.

Settling a context compares its reserve with its loan, and each of the three
outcomes is one of `settle_of_eq`, `settle_of_lt` and `settle_of_gt`.
-/
import LedgerCore.Context.Op

namespace LedgerCore

namespace Context

variable {ctx after : Context}

-- ======================================================================= shifts

/-- Reserve and loan moved together, and nothing else on the books did. -/
structure Shifts (ctx after : Context) : Prop where
  txn : after.txn = ctx.txn
  deposit : after.feeDeposit = ctx.feeDeposit
  charged : after.oneTimeFeeCharged = ctx.oneTimeFeeCharged
  together : after.reserve.toNat + ctx.systemLoan.toNat
    = ctx.reserve.toNat + after.systemLoan.toNat

theorem Shifts.refl (ctx : Context) : ctx.Shifts ctx := ⟨rfl, rfl, rfl, rfl⟩

/-- A loan raises reserve and loan by the same amount. -/
theorem shifts_addSystemLoan {amount : Amount} (h : ctx.addSystemLoan amount = (.ok (), after)) :
    ctx.Shifts after := by
  unfold addSystemLoan at h
  split at h
  · cases h
  · next loan hloan =>
      split at h
      · cases h
      · next reserve hreserve =>
          cases h
          rw [Amount.add?_eq_some_iff] at hloan hreserve
          refine ⟨rfl, rfl, rfl, ?_⟩
          dsimp only
          omega

/-- Paying back lowers them by the same amount, or changes nothing. -/
theorem shifts_payOffLoan (ctx : Context) : ctx.Shifts ctx.payOffLoan.2 := by
  unfold payOffLoan
  split
  · exact .refl ctx
  · split
    · exact .refl ctx
    · next hcovered =>
        refine ⟨rfl, rfl, rfl, ?_⟩
        rw [Amount.lt_def] at hcovered
        simp only [Amount.toNat_monus, Amount.toNat_zero]
        omega

/-- Settling leaves what paying back the loan leaves, whatever it says
then. -/
theorem settle_snd (ctx : Context) : ctx.settle.2 = ctx.payOffLoan.2 := by
  unfold settle
  rcases ctx.payOffLoan with ⟨⟨⟩ | _, paid⟩
  · rfl
  · dsimp only
    split <;> rfl

-- ===================================================================== settling

/-- A reserve that covers the loan pays it back at once. -/
theorem payOffLoan_of_le (h : ctx.systemLoan ≤ ctx.reserve) :
    ctx.payOffLoan
      = (.ok (), { ctx with reserve := ctx.reserve.monus ctx.systemLoan, systemLoan := .zero }) := by
  unfold payOffLoan
  split
  · next hnone =>
      rw [Amount.isZero_iff] at hnone
      have hsame : ctx.reserve.monus ctx.systemLoan = ctx.reserve := by
        rw [hnone]
        rfl
      rw [hsame, ← hnone]
  · have hcovered : ¬ ctx.reserve < ctx.systemLoan := Nat.not_lt.mpr h
    rw [if_neg hcovered]

/-- Where the reserve is exactly the loan, the books are closed. -/
theorem settle_of_eq (h : ctx.reserve = ctx.systemLoan) :
    ctx.settle = (.ok (), { ctx with reserve := .zero, systemLoan := .zero }) := by
  have hnone : ctx.reserve.monus ctx.systemLoan = .zero := by
    ext
    rw [Amount.toNat_monus, h, Nat.sub_self]
    rfl
  rw [settle, payOffLoan_of_le (Nat.le_of_eq (congrArg Amount.toNat h.symm)), hnone]
  rfl

/-- A loan that the reserve does not cover is not repaid at all. -/
theorem settle_of_lt (h : ctx.reserve < ctx.systemLoan) :
    ctx.settle = (.error (.defaultedSystemLoan (ctx.systemLoan.monus ctx.reserve)
      (ctx.feeDeposit.getD .zero)), ctx) := by
  have hloan : ¬ ctx.systemLoan.isZero = true := by
    rw [Amount.isZero_iff]
    intro hnone
    rw [hnone] at h
    exact Nat.not_lt_zero _ h
  rw [settle, payOffLoan, if_neg hloan, if_pos h]

/-- What is left over beyond the loan is refused. -/
theorem settle_of_gt (h : ctx.systemLoan < ctx.reserve) :
    ctx.settle.1 = .error (.reserveNotEmpty (ctx.reserve.monus ctx.systemLoan)) := by
  have hleft : ¬ (ctx.reserve.monus ctx.systemLoan).isZero = true := by
    rw [Amount.isZero_iff, Amount.ext_iff, Amount.toNat_monus]
    exact Nat.sub_ne_zero_of_lt h
  rw [settle, payOffLoan_of_le (Nat.le_of_lt h)]
  dsimp only
  rw [if_neg hleft]

-- ============================================================== what answers tell

/-- An operation without an answer of its own answers that it is done. -/
theorem silent_eq_ok_iff {outcome : Outcome Unit} {answer : ContextAnswer} :
    ContextOp.run.silent outcome = (.ok answer, after) ↔
      outcome = (.ok (), after) ∧ answer = .done := by
  rcases outcome with ⟨⟨⟩ | cause, next⟩ <;> simp [ContextOp.run.silent, and_comm, eq_comm]

theorem silent_eq_error_iff {outcome : Outcome Unit} {cause : ExecutionError} :
    ContextOp.run.silent outcome = (.error cause, after) ↔ outcome = (.error cause, after) := by
  rcases outcome with ⟨⟨⟩ | other, next⟩ <;> simp [ContextOp.run.silent]

/-- A loan fails for want of room only. -/
theorem addSystemLoan_of_error {amount : Amount} {cause : ExecutionError}
    (h : ctx.addSystemLoan amount = (.error cause, after)) : cause = .amountOverflow := by
  unfold addSystemLoan at h
  split at h
  · cases h
    rfl
  · split at h
    · cases h
      rfl
    · cases h

/-- A deposit is the first one, and goes to the reserve. -/
theorem depositFeeReserve_ok {resource : ResourceAddr} {amount : Amount}
    (h : ctx.depositFeeReserve resource amount = (.ok (), after)) :
    ctx.feeDeposit = none ∧ ∃ reserve : Amount,
      reserve.toNat = ctx.reserve.toNat + amount.toNat
        ∧ after = { ctx with reserve := reserve, feeDeposit := some amount } := by
  unfold depositFeeReserve at h
  split at h
  · cases h
  · next hfirst =>
      split at h
      · cases h
      · split at h
        · cases h
        · next reserve hreserve =>
            cases h
            rw [Option.not_isSome_iff_eq_none] at hfirst
            exact ⟨hfirst, reserve, Amount.add?_eq_some_iff.mp hreserve, rfl⟩

/-- A deposit that fails changes nothing. -/
theorem depositFeeReserve_of_error {resource : ResourceAddr} {amount : Amount}
    {cause : ExecutionError}
    (h : ctx.depositFeeReserve resource amount = (.error cause, after)) : after = ctx := by
  unfold depositFeeReserve at h
  split at h
  · cases h
    rfl
  · split at h
    · cases h
      rfl
    · split at h
      · cases h
        rfl
      · cases h

/-- A one-time charge that succeeds either was made before, or is made now. -/
theorem chargeOneTimeFee_ok {fee : Txn → Except ExecutionError Amount}
    (h : ctx.chargeOneTimeFee fee = (.ok (), after)) :
    (ctx.oneTimeFeeCharged = true ∧ after = ctx)
      ∨ ctx.oneTimeFeeCharged = false ∧ ∃ amount, fee ctx.txn = .ok amount
          ∧ amount ≤ ctx.reserve
          ∧ after = { ctx with reserve := ctx.reserve.monus amount, oneTimeFeeCharged := true } := by
  unfold chargeOneTimeFee at h
  split at h
  · next hcharged =>
      cases h
      exact .inl ⟨hcharged, rfl⟩
  · next hcharged =>
      split at h
      · cases h
      · next amount hamount =>
          split at h
          · next paid hpaid =>
              cases h
              obtain ⟨hcovered, rfl⟩ := debit_eq_ok_iff.mp hpaid
              exact .inr ⟨Bool.eq_false_iff.mpr hcharged, amount, hamount, hcovered, rfl⟩
          · cases h

/-- A charge that fails changes nothing. -/
theorem chargeOneTimeFee_of_error {fee : Txn → Except ExecutionError Amount}
    {cause : ExecutionError} (h : ctx.chargeOneTimeFee fee = (.error cause, after)) :
    after = ctx := by
  unfold chargeOneTimeFee at h
  split at h
  · cases h
  · split at h
    · cases h
      rfl
    · split at h
      · cases h
      · next hunpaid =>
          cases h
          exact (debit_of_error hunpaid).1

/-- What is withdrawn is taken from the reserve. -/
theorem withdrawFeeReserve_ok {amount taken : Amount}
    (h : ctx.withdrawFeeReserve amount = (.ok taken, after)) :
    ctx.debit amount = (.ok (), after) := by
  unfold withdrawFeeReserve at h
  split at h
  · next hpaid =>
      cases h
      exact hpaid
  · cases h

/-- A withdrawal that fails changes nothing. -/
theorem withdrawFeeReserve_of_error {amount : Amount} {cause : ExecutionError}
    (h : ctx.withdrawFeeReserve amount = (.error cause, after)) : after = ctx := by
  unfold withdrawFeeReserve at h
  split at h
  · cases h
  · next hunpaid =>
      cases h
      exact (debit_of_error hunpaid).1

/-- A loan that cannot be paid back stays. -/
theorem payOffLoan_of_error {cause : ExecutionError} (h : ctx.payOffLoan = (.error cause, after)) :
    after = ctx := by
  unfold payOffLoan at h
  split at h
  · cases h
  · split at h
    · cases h
      rfl
    · cases h

/-- A signature without budget changes nothing. -/
theorem spendSig_of_error {cause : ExecutionError} (h : ctx.spendSig = (.error cause, after)) :
    after = ctx := by
  unfold spendSig at h
  split at h
  · cases h
    rfl
  · cases h

/-- An operation that fails leaves the context as it was, but for a loan that
settling has repaid already, and a loan that overflows. -/
theorem eq_of_error {op : ContextOp} {cause : ExecutionError}
    (h : op.run ctx = (.error cause, after)) (unsettled : op ≠ .settle)
    (unlent : ∀ amount, op ≠ .lend amount) : after = ctx := by
  cases op with
  | deposit resource amount => exact depositFeeReserve_of_error (silent_eq_error_iff.mp h)
  | withdraw amount =>
      unfold ContextOp.run at h
      dsimp only at h
      split at h
      · cases h
      · next hunpaid =>
          cases h
          exact withdrawFeeReserve_of_error hunpaid
  | charge amount => exact (debit_of_error (silent_eq_error_iff.mp h)).1
  | chargeOnce fee => exact chargeOneTimeFee_of_error (silent_eq_error_iff.mp h)
  | lend amount => exact absurd rfl (unlent amount)
  | payOffLoan => exact payOffLoan_of_error (silent_eq_error_iff.mp h)
  | settle => exact absurd rfl unsettled
  | checkPermission level => exact (congrArg Prod.snd (silent_eq_error_iff.mp h)).symm
  | checkAllocation => exact (congrArg Prod.snd (silent_eq_error_iff.mp h)).symm
  | spendSig => exact spendSig_of_error (silent_eq_error_iff.mp h)
  | setKey key => cases h
  | setAllocationDisabled disabled => cases h
  | emit event => cases h
  | takeEvents => cases h
  | txnSize => cases h

/-- So it leaves the books balanced, with that one exception. -/
theorem shifts_of_error {op : ContextOp} {cause : ExecutionError}
    (h : op.run ctx = (.error cause, after))
    (hlend : ∀ amount, op = .lend amount → cause ≠ .amountOverflow) : ctx.Shifts after := by
  by_cases settled : op = .settle
  · subst settled
    have hafter : ctx.settle.2 = after := congrArg Prod.snd (silent_eq_error_iff.mp h)
    rw [← hafter, settle_snd]
    exact shifts_payOffLoan ctx
  · rw [eq_of_error h settled ?_]
    · exact .refl ctx
    · rintro amount rfl
      exact hlend amount rfl (addSystemLoan_of_error (silent_eq_error_iff.mp h))

end Context

end LedgerCore
