/-
What an operation leaves behind when it fails. All but two leave nothing
behind: they check first and write last (`eq_of_error`). The two write before
their last check. Settling a context repays the loan and then finds something
left over. Lending books the loan and then finds that the reserve cannot be
credited with it.

# The loan that is not credited

A loan that the debt has room for and the reserve has not (`Uncredited`) fails,
but it has been booked. Whoever goes on after the failure owes an amount that
was never lent. No other refusal of an operation, settling apart, can be told
from the operation not having been called (`unchanged_of_refused`). The case is
within reach: a deposit of the largest amount and a loan of one subunit are
enough (`refused_loan_booked`).
-/
import LedgerCore.Proofs.Context.Settlement

namespace LedgerCore

namespace Context

variable {ctx after : Context} {op : ContextOp} {cause : ExecutionError} {amount : Amount}

-- ========================================================================= lending

/-- The debt has room for a loan that the reserve has no room for. -/
def Uncredited (ctx : Context) (amount : Amount) : Prop :=
  ctx.systemLoan.toNat + amount.toNat < 0x100000000000000000000000000000000
    ∧ 0x100000000000000000000000000000000 ≤ ctx.reserve.toNat + amount.toNat

instance (ctx : Context) (amount : Amount) : Decidable (ctx.Uncredited amount) :=
  inferInstanceAs (Decidable (_ ∧ _))

/-- A loan that is refused changes nothing, unless it is one that the reserve
alone has no room for: that one is booked. -/
theorem addSystemLoan_refused (h : ctx.addSystemLoan amount = (.error cause, after)) :
    cause = .amountOverflow
      ∧ ((¬ ctx.Uncredited amount ∧ after = ctx)
        ∨ ctx.Uncredited amount ∧ ∃ loan : Amount,
            loan.toNat = ctx.systemLoan.toNat + amount.toNat
              ∧ after = { ctx with systemLoan := loan }) := by
  refine ⟨addSystemLoan_of_error h, ?_⟩
  unfold addSystemLoan at h
  split at h
  · next full =>
      cases h
      rw [Amount.add?_eq_none_iff] at full
      exact .inl ⟨fun uncredited => absurd uncredited.1 (by omega), rfl⟩
  · next loan booked =>
      rw [Amount.add?_eq_some_iff] at booked
      split at h
      · next full =>
          cases h
          rw [Amount.add?_eq_none_iff] at full
          have fits := loan.lt_limit
          exact .inr ⟨⟨by omega, full⟩, loan, booked, rfl⟩
      · cases h

/-- A loan that was booked without credit is a debt that was not there. -/
theorem Uncredited.ne (uncredited : ctx.Uncredited amount) {loan : Amount}
    (booked : loan.toNat = ctx.systemLoan.toNat + amount.toNat) :
    { ctx with systemLoan := loan } ≠ ctx := by
  intro same
  have debt : loan = ctx.systemLoan := congrArg Context.systemLoan same
  have limit := ctx.reserve.lt_limit
  have overflows := uncredited.2
  rw [debt] at booked
  omega

-- ======================================================================== refusals

/-- An operation that is refused leaves the context as it was, settling apart,
if and only if it is no loan that the reserve alone has no room for. Such a
loan is owed afterwards, and all else is as it was. -/
theorem unchanged_of_refused (refused : op.run ctx = (.error cause, after))
    (unsettled : op ≠ .settle) :
    (after = ctx ↔ ¬ ∃ amount, op = .lend amount ∧ ctx.Uncredited amount)
      ∧ ∀ amount, op = .lend amount → ctx.Uncredited amount →
          cause = .amountOverflow ∧ ∃ loan : Amount,
            loan.toNat = ctx.systemLoan.toNat + amount.toNat
              ∧ after = { ctx with systemLoan := loan } := by
  by_cases lending : ∃ amount, op = .lend amount
  · -- the loan is booked before the reserve is credited, so its refusal has two forms
    obtain ⟨amount, rfl⟩ := lending
    obtain ⟨overflow, ⟨credited, rfl⟩ | ⟨uncredited, loan, booked, rfl⟩⟩ :=
      addSystemLoan_refused (silent_eq_error_iff.mp refused)
    · refine ⟨iff_of_true rfl ?_, ?_⟩
      · rintro ⟨other, same, uncredited⟩
        cases same
        exact credited uncredited
      · intro other same uncredited
        cases same
        exact absurd uncredited credited
    · refine ⟨iff_of_false (uncredited.ne booked) ?_, ?_⟩
      · exact fun none => none ⟨amount, rfl, uncredited⟩
      · intro other same _
        cases same
        exact ⟨overflow, loan, booked, rfl⟩
  · refine ⟨iff_of_true ?_ ?_, ?_⟩
    · exact eq_of_error refused unsettled fun amount lend => lending ⟨amount, lend⟩
    · rintro ⟨amount, lend, -⟩
      exact lending ⟨amount, lend⟩
    · exact fun amount lend => absurd ⟨amount, lend⟩ lending

/-- A context that the largest amount was deposited in. -/
def brimming : Context :=
  ((opened default .user 0 false .native).perform
    [.deposit .native (.clamp 0xffffffffffffffffffffffffffffffff)]).2

/-- It refuses a loan, which is owed all the same, and it refuses a second
deposit, which changes nothing. -/
theorem brimming_refuses :
    (∃ after, (ContextOp.lend (.clamp 1)).run brimming = (.error .amountOverflow, after)
      ∧ after = { brimming with systemLoan := .clamp 1 })
    ∧ ∃ after, (ContextOp.deposit .native (.clamp 1)).run brimming
          = (.error .multipleFeeReserveDeposit, after)
        ∧ after = brimming := by
  have uncredited : brimming.Uncredited (.clamp 1) := by decide +kernel
  have lending : (ContextOp.lend (.clamp 1)).run brimming = (.error .amountOverflow, _) := rfl
  have depositing : (ContextOp.deposit .native (.clamp 1)).run brimming
      = (.error .multipleFeeReserveDeposit, _) := rfl
  constructor
  · obtain ⟨-, loan, booked, hafter⟩ :=
      (unchanged_of_refused lending nofun).2 (.clamp 1) rfl uncredited
    obtain rfl : loan = .clamp 1 := Amount.ext booked
    exact ⟨_, lending, hafter⟩
  · refine ⟨_, depositing, (unchanged_of_refused depositing nofun).1.mpr ?_⟩
    rintro ⟨amount, lend, -⟩
    cases lend

/-- A loan that is refused is owed all the same. -/
theorem refused_loan_booked :
    ∃ after, (ContextOp.lend (.clamp 1)).run brimming = (.error .amountOverflow, after)
      ∧ brimming.systemLoan.toNat = 0 ∧ after.systemLoan.toNat = 1 :=
  ⟨_, rfl, rfl, rfl⟩

end Context

end LedgerCore
