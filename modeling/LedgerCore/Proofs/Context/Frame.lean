/-
What an operation leaves alone. Half of a context's operations move its
books and nothing else, the others touch one thing each: the key, the
signature budget, the switch for allocation, the events. `Context.Frame`
says so as far as later proofs ask for it; it is proved here once, by the
operations, and nothing after this file unfolds them for it.
-/
import LedgerCore.Proofs.Context.Books

namespace LedgerCore

namespace Context

theorem silent_snd (outcome : Outcome Unit) : (ContextOp.run.silent outcome).2 = outcome.2 := by
  rcases outcome with ⟨⟨⟩ | cause, after⟩ <;> rfl

-- ============================================================ books and no more

/-- Taking from the reserve changes the reserve only. -/
theorem debit_snd (ctx : Context) (amount : Amount) :
    ∃ reserve, (ctx.debit amount).2 = { ctx with reserve := reserve } := by
  unfold debit
  split
  · exact ⟨ctx.reserve, rfl⟩
  · exact ⟨_, rfl⟩

/-- A withdrawal leaves what taking from the reserve leaves. -/
theorem withdrawFeeReserve_snd (ctx : Context) (amount : Amount) :
    (ctx.withdrawFeeReserve amount).2 = (ctx.debit amount).2 := by
  unfold withdrawFeeReserve
  rcases ctx.debit amount with ⟨cause | ⟨⟩, after⟩ <;> rfl

/-- A charge changes the reserve, and that a fee was charged. -/
theorem chargeOneTimeFee_snd (ctx : Context) (fee : Txn → Except ExecutionError Amount) :
    ∃ reserve charged, (ctx.chargeOneTimeFee fee).2
      = { ctx with reserve := reserve, oneTimeFeeCharged := charged } := by
  unfold chargeOneTimeFee
  split
  · exact ⟨ctx.reserve, ctx.oneTimeFeeCharged, rfl⟩
  · split
    · exact ⟨ctx.reserve, ctx.oneTimeFeeCharged, rfl⟩
    · next amount hamount =>
        obtain ⟨reserve, hafter⟩ := ctx.debit_snd amount
        rcases hpaid : ctx.debit amount with ⟨cause | ⟨⟩, after⟩
        · rw [hpaid] at hafter
          exact ⟨reserve, ctx.oneTimeFeeCharged, hafter⟩
        · rw [hpaid] at hafter
          obtain rfl : after = _ := hafter
          exact ⟨reserve, true, rfl⟩

/-- A deposit changes the reserve, and what was deposited. -/
theorem depositFeeReserve_snd (ctx : Context) (resource : ResourceAddr) (amount : Amount) :
    ∃ reserve deposit, (ctx.depositFeeReserve resource amount).2
      = { ctx with reserve := reserve, feeDeposit := deposit } := by
  unfold depositFeeReserve
  split
  · exact ⟨ctx.reserve, ctx.feeDeposit, rfl⟩
  · split
    · exact ⟨ctx.reserve, ctx.feeDeposit, rfl⟩
    · split
      · exact ⟨ctx.reserve, ctx.feeDeposit, rfl⟩
      · exact ⟨_, _, rfl⟩

/-- A loan changes reserve and loan. -/
theorem addSystemLoan_snd (ctx : Context) (amount : Amount) :
    ∃ reserve loan, (ctx.addSystemLoan amount).2
      = { ctx with reserve := reserve, systemLoan := loan } := by
  unfold addSystemLoan
  split
  · exact ⟨ctx.reserve, ctx.systemLoan, rfl⟩
  · split
    · exact ⟨ctx.reserve, _, rfl⟩
    · exact ⟨_, _, rfl⟩

theorem payOffLoan_snd (ctx : Context) :
    ∃ reserve loan, ctx.payOffLoan.2 = { ctx with reserve := reserve, systemLoan := loan } := by
  unfold payOffLoan
  split
  · exact ⟨ctx.reserve, ctx.systemLoan, rfl⟩
  · split
    · exact ⟨ctx.reserve, ctx.systemLoan, rfl⟩
    · exact ⟨_, _, rfl⟩

/-- A signature changes the budget only. -/
theorem spendSig_snd (ctx : Context) :
    ∃ sigs, ctx.spendSig.2 = { ctx with sigsLeft := sigs } := by
  unfold spendSig
  split
  · exact ⟨ctx.sigsLeft, rfl⟩
  · exact ⟨_, rfl⟩

-- ==================================================================== the frame

/-- What an operation leaves alone. -/
structure Frame (op : ContextOp) (ctx after : Context) : Prop where
  txn : after.txn = ctx.txn
  level : after.level = ctx.level
  key : ctx.key.isSome → after.key.isSome
  sigs : op ≠ .spendSig → after.sigsLeft = ctx.sigsLeft
  deposit : (∀ resource amount, op ≠ .deposit resource amount) →
    after.feeDeposit = ctx.feeDeposit

/-- Whether an operation succeeds or fails, what its frame names is
untouched. -/
theorem frame_run (op : ContextOp) (ctx : Context) : Frame op ctx (op.run ctx).2 := by
  -- each operation by the fields that its own lemma names
  cases op with
  | deposit resource amount =>
      obtain ⟨reserve, deposit, hafter⟩ := ctx.depositFeeReserve_snd resource amount
      rw [ContextOp.run, silent_snd, hafter]
      exact ⟨rfl, rfl, id, fun _ => rfl, fun other => absurd rfl (other resource amount)⟩
  | withdraw amount =>
      obtain ⟨reserve, hafter⟩ := ctx.debit_snd amount
      have hrun : ((ContextOp.withdraw amount).run ctx).2 = (ctx.withdrawFeeReserve amount).2 := by
        rw [ContextOp.run]
        rcases ctx.withdrawFeeReserve amount with ⟨cause | taken, after⟩ <;> rfl
      rw [hrun, withdrawFeeReserve_snd, hafter]
      exact ⟨rfl, rfl, id, fun _ => rfl, fun _ => rfl⟩
  | charge amount =>
      obtain ⟨reserve, hafter⟩ := ctx.debit_snd amount
      rw [ContextOp.run, silent_snd, charge, hafter]
      exact ⟨rfl, rfl, id, fun _ => rfl, fun _ => rfl⟩
  | chargeOnce fee =>
      obtain ⟨reserve, charged, hafter⟩ := ctx.chargeOneTimeFee_snd fee
      rw [ContextOp.run, silent_snd, hafter]
      exact ⟨rfl, rfl, id, fun _ => rfl, fun _ => rfl⟩
  | lend amount =>
      obtain ⟨reserve, loan, hafter⟩ := ctx.addSystemLoan_snd amount
      rw [ContextOp.run, silent_snd, hafter]
      exact ⟨rfl, rfl, id, fun _ => rfl, fun _ => rfl⟩
  | payOffLoan =>
      obtain ⟨reserve, loan, hafter⟩ := ctx.payOffLoan_snd
      rw [ContextOp.run, silent_snd, hafter]
      exact ⟨rfl, rfl, id, fun _ => rfl, fun _ => rfl⟩
  | settle =>
      obtain ⟨reserve, loan, hafter⟩ := ctx.payOffLoan_snd
      rw [ContextOp.run, silent_snd, settle_snd, hafter]
      exact ⟨rfl, rfl, id, fun _ => rfl, fun _ => rfl⟩
  | checkPermission level =>
      rw [ContextOp.run, silent_snd]
      exact ⟨rfl, rfl, id, fun _ => rfl, fun _ => rfl⟩
  | setKey key => exact ⟨rfl, rfl, fun _ => rfl, fun _ => rfl, fun _ => rfl⟩
  | spendSig =>
      obtain ⟨sigs, hafter⟩ := ctx.spendSig_snd
      rw [ContextOp.run, silent_snd, hafter]
      exact ⟨rfl, rfl, id, fun other => absurd rfl other, fun _ => rfl⟩
  | setAllocationDisabled disabled => exact ⟨rfl, rfl, id, fun _ => rfl, fun _ => rfl⟩
  | checkAllocation =>
      rw [ContextOp.run, silent_snd]
      exact ⟨rfl, rfl, id, fun _ => rfl, fun _ => rfl⟩
  | emit event => exact ⟨rfl, rfl, id, fun _ => rfl, fun _ => rfl⟩
  | takeEvents => exact ⟨rfl, rfl, id, fun _ => rfl, fun _ => rfl⟩
  | txnSize => exact ⟨rfl, rfl, id, fun _ => rfl, fun _ => rfl⟩

end Context

end LedgerCore
