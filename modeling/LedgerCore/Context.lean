/-
Transactions and the context they are executed in. A transaction is a name
and an opaque payload, whose length is what size-based fees are charged on.

The context is what a transaction owes, owns and may do while its
instructions run. It keeps the fee reserve, the system loan that may
pre-fund it, the signature budget, the permission level and signer key, and
the events emitted so far. `settle` closes the books after the last
instruction: the loan is repaid out of the reserve, and the reserve must
then be empty.

An operation answers a result and the context after it. A failing
operation leaves the context as it was, with two exceptions: `addSystemLoan`
states its own, and `settle` has repaid the loan when it finds something
left over.
-/
import LedgerCore.ExecutionError
import LedgerCore.Hash

namespace LedgerCore

-- ============================================================ transactions

/-- A serialized transaction. -/
structure Txn where
  id : Hash
  payload : Bytes
deriving DecidableEq

namespace Txn

/-- Length of the payload in bytes. -/
def size (txn : Txn) : Nat := txn.payload.length

instance : Inhabited Txn := ⟨⟨Hash.zero, []⟩⟩

end Txn

-- ================================================================ contexts

/-- The books and the authority of one running transaction. -/
structure Context where
  txn : Txn
  level : PermissionLevel
  skipAuthorization : Bool
  key : Option SignerKey
  feeResource : ResourceAddr
  reserve : Amount
  feeDeposit : Option Amount
  systemLoan : Amount
  oneTimeFeeCharged : Bool
  sigsLeft : Nat
  allocationDisabled : Bool
  events : List Bytes
deriving DecidableEq

namespace Context

/-- A context nothing has happened in: no key, no reserve, no loan, and fees
payable in the native resource. -/
def fresh (txn : Txn) (level : PermissionLevel) (sigs : Nat) : Context where
  txn := txn
  level := level
  skipAuthorization := false
  key := none
  feeResource := .native
  reserve := .zero
  feeDeposit := none
  systemLoan := .zero
  oneTimeFeeCharged := false
  sigsLeft := sigs
  allocationDisabled := false
  events := []

/-- An operation's result and the context after it. -/
abbrev Outcome (α : Type) := Except ExecutionError α × Context

-- ============================================================ fee reserve

/-- Lends an amount, which is credited to the reserve. The loan is booked
first: when only the reserve overflows, the loan has already grown. -/
def addSystemLoan (ctx : Context) (amount : Amount) : Outcome Unit :=
  match ctx.systemLoan.add? amount with
  | none => (.error .amountOverflow, ctx)
  | some loan =>
      match ctx.reserve.add? amount with
      | none => (.error .amountOverflow, { ctx with systemLoan := loan })
      | some reserve => (.ok (), { ctx with systemLoan := loan, reserve := reserve })

/-- Pays into the reserve: once per transaction, in the fee resource. -/
def depositFeeReserve (ctx : Context) (resource : ResourceAddr) (amount : Amount) :
    Outcome Unit :=
  if ctx.feeDeposit.isSome then (.error .multipleFeeReserveDeposit, ctx)
  else if resource ≠ ctx.feeResource then (.error (.invalidFeeResource resource), ctx)
  else
    match ctx.reserve.add? amount with
    | none => (.error .amountOverflow, ctx)
    | some reserve => (.ok (), { ctx with reserve := reserve, feeDeposit := some amount })

/-- Takes an amount out of the reserve. -/
def debit (ctx : Context) (amount : Amount) : Outcome Unit :=
  match ctx.reserve.sub? amount with
  | none => (.error (.depletedFeeReserve amount ctx.reserve), ctx)
  | some reserve => (.ok (), { ctx with reserve := reserve })

/-- Hands out part of the reserve, as for a refund. -/
def withdrawFeeReserve (ctx : Context) (amount : Amount) : Outcome Amount :=
  match ctx.debit amount with
  | (.ok (), after) => (.ok amount, after)
  | (.error cause, after) => (.error cause, after)

/-- Charges an amount to the reserve. -/
def charge (ctx : Context) (amount : Amount) : Outcome Unit :=
  ctx.debit amount

/-- Charges a fee that is computed from the transaction, once: after a
charge that succeeded, later calls do nothing. -/
def chargeOneTimeFee (ctx : Context) (fee : Txn → Except ExecutionError Amount) :
    Outcome Unit :=
  if ctx.oneTimeFeeCharged then (.ok (), ctx)
  else
    match fee ctx.txn with
    | .error cause => (.error cause, ctx)
    | .ok amount =>
        match ctx.debit amount with
        | (.ok (), after) => (.ok (), { after with oneTimeFeeCharged := true })
        | (.error cause, after) => (.error cause, after)

/-- Repays the whole loan out of the reserve. -/
def payOffLoan (ctx : Context) : Outcome Unit :=
  if ctx.systemLoan.isZero then (.ok (), ctx)
  else if ctx.reserve < ctx.systemLoan then
    (.error (.defaultedSystemLoan (ctx.systemLoan.monus ctx.reserve)
      (ctx.feeDeposit.getD .zero)), ctx)
  else (.ok (), { ctx with reserve := ctx.reserve.monus ctx.systemLoan, systemLoan := .zero })

/-- Closes the books: the loan is repaid, and nothing may be left over. -/
def settle (ctx : Context) : Outcome Unit :=
  match ctx.payOffLoan with
  | (.error cause, after) => (.error cause, after)
  | (.ok (), after) =>
      if after.reserve.isZero then (.ok (), after)
      else (.error (.reserveNotEmpty after.reserve), after)

-- =============================================================== authority

/-- Whether a procedure of that level may run here: the transaction needs
the level, and privileged procedures run in unsigned transactions only. -/
def checkPermission (ctx : Context) (required : PermissionLevel) :
    Except ExecutionError Unit :=
  if ctx.level < required then .error (.invalidPermission required ctx.level)
  else if PermissionLevel.superUser ≤ required ∧ ctx.key.isSome then .error .signedSystem
  else .ok ()

/-- Records the key the transaction was signed with. -/
def setKey (ctx : Context) (key : SignerKey) : Context :=
  { ctx with key := some key }

/-- Uses up one signature of the budget. -/
def spendSig (ctx : Context) : Outcome Unit :=
  match ctx.sigsLeft with
  | 0 => (.error .signatureBudgetExhausted, ctx)
  | left + 1 => (.ok (), { ctx with sigsLeft := left })

-- ==================================================== resources and events

/-- Forbids or allows the creation and destruction of resources. -/
def setAllocationDisabled (ctx : Context) (disabled : Bool) : Context :=
  { ctx with allocationDisabled := disabled }

/-- Whether resources may be created and destroyed. -/
def checkAllocation (ctx : Context) : Except ExecutionError Unit :=
  if ctx.allocationDisabled then .error .resourceAllocationDisabled else .ok ()

/-- Adds an event behind those emitted so far. -/
def emit (ctx : Context) (event : Bytes) : Context :=
  { ctx with events := ctx.events ++ [event] }

/-- Hands out the events and forgets them. -/
def takeEvents (ctx : Context) : List Bytes × Context :=
  (ctx.events, { ctx with events := [] })

-- =================================================================== laws

/-- A debit succeeds exactly when the reserve covers it, and takes just that. -/
theorem debit_eq_ok_iff {ctx after : Context} {amount : Amount} :
    ctx.debit amount = (.ok (), after) ↔
      amount ≤ ctx.reserve ∧ after = { ctx with reserve := ctx.reserve.monus amount } := by
  unfold debit
  split
  · next h =>
      rw [Amount.sub?_eq_none_iff] at h
      simp only [Prod.mk.injEq, reduceCtorEq, false_and, false_iff, not_and]
      intro h'
      exact absurd h (Nat.not_lt.mpr h')
  · next r h =>
      rw [Amount.sub?_eq_some_iff] at h
      have hr : r = ctx.reserve.monus amount := by
        ext; simp only [Amount.toNat_monus]; omega
      simp only [Prod.mk.injEq, true_and, ← hr, eq_comm]
      constructor
      · intro e; exact ⟨by rw [Amount.le_def]; omega, e⟩
      · exact fun e => e.2

/-- A failing debit changes nothing. -/
theorem debit_of_error {ctx after : Context} {amount : Amount} {cause : ExecutionError}
    (h : ctx.debit amount = (.error cause, after)) :
    after = ctx ∧ cause = .depletedFeeReserve amount ctx.reserve := by
  unfold debit at h
  split at h
  · cases h; exact ⟨rfl, rfl⟩
  · simp at h

end Context

end LedgerCore
