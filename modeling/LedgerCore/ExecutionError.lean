/-
Why a transaction is rejected. Every failure that the machine, a meter or a
procedure can raise is one constructor of `ExecutionError`; each belongs to
one broad category and has one wording. Failures of the substate codecs and
of authorizers are kinds of their own, since they arise where no other
failure can.
-/
import LedgerCore.Amount
import LedgerCore.Procedure.Key
import LedgerCore.Resource
import LedgerCore.Substate.Id

namespace LedgerCore

-- ======================================================== narrower failures

/-- An encoding that is no substate. -/
structure DecodeError where
  reason : String
deriving DecidableEq

/-- An authorizer's refusal. -/
structure AuthorizationError where
  reason : String
deriving DecidableEq

-- ========================================================== the failures

/-- A reason to reject a transaction. -/
inductive ExecutionError where
  /-- An opcode nobody recognizes. -/
  | unknownOp (opcode : UInt8)
  /-- A new substate's encoding goes on after the substate. -/
  | trailingBytes (remaining : Nat)
  /-- No substate type has that tag. -/
  | unknownSubstateType (tag : TypeTag)
  /-- An encoding that is no substate. -/
  | deserialize (cause : DecodeError)
  /-- Nothing is committed under that name. -/
  | substateNotFound (id : SubstateId)
  /-- A committed substate was consumed before. -/
  | substateAlreadyDown (id : SubstateId)
  /-- No live substate has that boot-up number. -/
  | createdNotFound (index : UInt32)
  /-- A virtual substate was consumed before. -/
  | virtualAlreadyDown (id : SubstateId)
  /-- A virtual substate has no parent to be synthesized from. -/
  | virtualParentMissing (id : SubstateId)
  /-- No resource definition is to be found at that address. -/
  | notAResource (addr : ResourceAddr)
  /-- No rule covers the operation in the present reducer state. -/
  | missingProcedure (key : ProcedureKey)
  /-- The group is reduced but goes on. -/
  | missingExpectedClose
  /-- The group is closed but its reducer state remains. -/
  | unclosedGroup (kind : ReducerKind)
  /-- The instructions end inside a group. -/
  | unterminatedGroup
  /-- The rule needs a higher level than the transaction has. -/
  | invalidPermission (required actual : PermissionLevel)
  /-- A privileged rule in a signed transaction. -/
  | signedSystem
  /-- More signatures than the transaction may carry. -/
  | signatureBudgetExhausted
  /-- A rule's authorizer refused. -/
  | unauthorized (cause : AuthorizationError)
  /-- A debit larger than the reserve. -/
  | depletedFeeReserve (requested available : Amount)
  /-- A second deposit. -/
  | multipleFeeReserveDeposit
  /-- A deposit in a resource that pays no fees. -/
  | invalidFeeResource (addr : ResourceAddr)
  /-- The reserve does not cover the loan. -/
  | defaultedSystemLoan (shortfall feeDeposit : Amount)
  /-- Something is left when everything should be settled. -/
  | reserveNotEmpty (remaining : Amount)
  /-- Resources may be neither created nor destroyed here. -/
  | resourceAllocationDisabled
  /-- A sum or product too large for an amount. -/
  | amountOverflow
  /-- The fee meter failed. -/
  | meter (cause : ExecutionError)
  /-- A procedure's own objection. -/
  | procedure (reason : String)
deriving DecidableEq

-- ============================================================= categories

/-- Broad classification of failures. -/
inductive ErrorCategory where
  /-- Malformed instruction or substate encoding. -/
  | parse
  /-- Missing or consumed state, groups not closed as they should. -/
  | stateConsistency
  /-- Permissions, signatures, authorizers. -/
  | authorization
  /-- Reserve and loan accounting. -/
  | economic
  /-- Raised by the meter. -/
  | metering
  /-- Raised by a procedure. -/
  | procedure
deriving DecidableEq

namespace ErrorCategory

/-- The name a category goes by. -/
def text : ErrorCategory → String
  | parse => "parse"
  | stateConsistency => "state_consistency"
  | authorization => "authorization"
  | economic => "economic"
  | metering => "metering"
  | procedure => "procedure"

end ErrorCategory

namespace ExecutionError

instance : Inhabited ExecutionError := ⟨unterminatedGroup⟩

/-- The category a failure belongs to. -/
def category : ExecutionError → ErrorCategory
  | unknownOp _ | trailingBytes _ | unknownSubstateType _ | deserialize _ => .parse
  | substateNotFound _ | substateAlreadyDown _ | createdNotFound _ | virtualAlreadyDown _
  | virtualParentMissing _ | notAResource _ | missingProcedure _ | missingExpectedClose
  | unclosedGroup _ | unterminatedGroup => .stateConsistency
  | invalidPermission .. | signedSystem | signatureBudgetExhausted
  | unauthorized _ => .authorization
  | depletedFeeReserve .. | multipleFeeReserveDeposit | invalidFeeResource _
  | defaultedSystemLoan .. | reserveNotEmpty _ | resourceAllocationDisabled
  | amountOverflow => .economic
  | meter _ => .metering
  | procedure _ => .procedure

-- ================================================================ wording

/-- The wording of a failure. -/
def message : ExecutionError → String
  | unknownOp opcode => "unknown instruction opcode 0x" ++ Bytes.hex [opcode]
  | trailingBytes remaining =>
      "substate encoding has " ++ remaining.repr ++ " trailing bytes"
  | unknownSubstateType tag => "no substate type registered for tag " ++ tag.text
  | deserialize cause => "cannot decode substate: " ++ cause.reason
  | substateNotFound id => "substate " ++ id.text ++ " not found"
  | substateAlreadyDown id => "substate " ++ id.text ++ " was already shut down"
  | createdNotFound index => "local substate #" ++ index.toNat.repr ++ " not found"
  | virtualAlreadyDown id => "virtual substate " ++ id.text ++ " was already shut down"
  | virtualParentMissing id => "virtual parent of " ++ id.text ++ " does not exist"
  | notAResource addr => addr.text ++ " is not a resource"
  | missingProcedure key => "no procedure registered for " ++ key.text
  | missingExpectedClose => "reducer state is void, expected end of group"
  | unclosedGroup kind => "group closed with pending reducer state " ++ kind.name
  | unterminatedGroup => "instruction stream ended inside an open group"
  | invalidPermission required actual =>
      "procedure requires " ++ required.text ++ " permission, transaction has " ++ actual.text
  | signedSystem => "privileged procedure invoked by a signed transaction"
  | signatureBudgetExhausted => "signature budget exhausted"
  | unauthorized cause => "authorization failed: " ++ cause.reason
  | depletedFeeReserve requested available =>
      "fee reserve depleted: requested " ++ requested.text ++ ", available " ++ available.text
  | multipleFeeReserveDeposit => "fee reserve may only be deposited once per transaction"
  | invalidFeeResource addr =>
      "fee reserve only accepts the native resource, got " ++ addr.text
  | defaultedSystemLoan shortfall feeDeposit =>
      "system loan defaulted: shortfall " ++ shortfall.text
        ++ ", fee deposit " ++ feeDeposit.text
  | reserveNotEmpty remaining =>
      "fee reserve not empty at end of transaction: " ++ remaining.text ++ " remaining"
  | resourceAllocationDisabled =>
      "resource allocation and destruction are disabled for this transaction"
  | amountOverflow => "amount overflow"
  | meter cause => "fee meter rejected transaction: " ++ cause.message
  | procedure reason => reason

/-- The name a failure goes by in reports. -/
def name : ExecutionError → String
  | unknownOp _ => "UnknownOp"
  | trailingBytes _ => "TrailingBytes"
  | unknownSubstateType _ => "UnknownSubstateType"
  | deserialize _ => "Deserialize"
  | substateNotFound _ => "SubstateNotFound"
  | substateAlreadyDown _ => "SubstateAlreadyDown"
  | createdNotFound _ => "LocalSubstateNotFound"
  | virtualAlreadyDown _ => "VirtualSubstateAlreadyDown"
  | virtualParentMissing _ => "VirtualParentStateDoesNotExist"
  | notAResource _ => "NotAResource"
  | missingProcedure _ => "MissingProcedure"
  | missingExpectedClose => "MissingExpectedEnd"
  | unclosedGroup _ => "UnclosedGroup"
  | unterminatedGroup => "UnterminatedGroup"
  | invalidPermission .. => "InvalidPermission"
  | signedSystem => "SignedSystem"
  | signatureBudgetExhausted => "SignatureBudgetExhausted"
  | unauthorized _ => "Unauthorized"
  | depletedFeeReserve .. => "DepletedFeeReserve"
  | multipleFeeReserveDeposit => "MultipleFeeReserveDeposit"
  | invalidFeeResource _ => "InvalidFeeResource"
  | defaultedSystemLoan .. => "DefaultedSystemLoan"
  | reserveNotEmpty _ => "ReserveNotEmpty"
  | resourceAllocationDisabled => "ResourceAllocationDisabled"
  | amountOverflow => "AmountOverflow"
  | meter _ => "Meter"
  | procedure _ => "Procedure"

end ExecutionError

end LedgerCore
