/-
The public operations of an execution context, as data. Procedures, meters
and scripts act on a context by naming operations; `ContextOp.run` is what
each name does. What may be read off a context is a `Context.View`, which
shows everything but whether authorization is skipped.
-/
import LedgerCore.Context

namespace LedgerCore

-- ================================================================= naming

/-- An operation on the execution context. -/
inductive ContextOp where
  | deposit (resource : ResourceAddr) (amount : Amount)
  | withdraw (amount : Amount)
  | charge (amount : Amount)
  | chargeOnce (fee : Txn → Except ExecutionError Amount)
  | lend (amount : Amount)
  | payOffLoan
  | settle
  | checkPermission (level : PermissionLevel)
  | setKey (key : SignerKey)
  | spendSig
  | setAllocationDisabled (disabled : Bool)
  | checkAllocation
  | emit (event : Bytes)
  | takeEvents
  | txnSize

/-- What an operation that succeeds has to say. -/
inductive ContextAnswer where
  | done
  | amount (value : Amount)
  | events (taken : List Bytes)
  | size (bytes : Nat)
deriving DecidableEq

namespace ContextOp

/-- What an operation does. -/
def run (op : ContextOp) (ctx : Context) : Context.Outcome ContextAnswer :=
  match op with
  | deposit resource amount => silent (ctx.depositFeeReserve resource amount)
  | withdraw amount =>
      match ctx.withdrawFeeReserve amount with
      | (.ok taken, after) => (.ok (.amount taken), after)
      | (.error cause, after) => (.error cause, after)
  | charge amount => silent (ctx.charge amount)
  | chargeOnce fee => silent (ctx.chargeOneTimeFee fee)
  | lend amount => silent (ctx.addSystemLoan amount)
  | payOffLoan => silent ctx.payOffLoan
  | settle => silent ctx.settle
  | checkPermission level => silent (ctx.checkPermission level, ctx)
  | setKey key => (.ok .done, ctx.setKey key)
  | spendSig => silent ctx.spendSig
  | setAllocationDisabled disabled => (.ok .done, ctx.setAllocationDisabled disabled)
  | checkAllocation => silent (ctx.checkAllocation, ctx)
  | emit event => (.ok .done, ctx.emit event)
  | takeEvents =>
      let (taken, after) := ctx.takeEvents
      (.ok (.events taken), after)
  | txnSize => (.ok (.size ctx.txn.size), ctx)
where
  /-- An outcome whose success says nothing more. -/
  silent (outcome : Context.Outcome Unit) : Context.Outcome ContextAnswer :=
    match outcome with
    | (.ok (), after) => (.ok .done, after)
    | (.error cause, after) => (.error cause, after)

end ContextOp

-- ================================================================ reading

/-- What procedures, authorizers and meters may read off a context. -/
structure Context.View where
  txn : Txn
  level : PermissionLevel
  key : Option SignerKey
  reserve : Amount
  systemLoan : Amount
  feeDeposit : Option Amount
  sigsLeft : Nat
  allocationDisabled : Bool
  events : List Bytes
deriving DecidableEq

/-- The readable part of a context. -/
def Context.view (ctx : Context) : Context.View where
  txn := ctx.txn
  level := ctx.level
  key := ctx.key
  reserve := ctx.reserve
  systemLoan := ctx.systemLoan
  feeDeposit := ctx.feeDeposit
  sigsLeft := ctx.sigsLeft
  allocationDisabled := ctx.allocationDisabled
  events := ctx.events

end LedgerCore
