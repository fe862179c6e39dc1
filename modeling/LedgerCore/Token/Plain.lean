/-
The plain rules: a token ledger with as few rules as it can do with. A
transfer remembers whose tokens it started with, it is opened by one
holding or by all that a scan finds, and it has to be handed on in full.
They differ from the base rules in that they note nothing, never join two
holdings in a transfer one by one, and refuse sums beyond 64 bits.
-/
import LedgerCore.Token.Base

namespace LedgerCore.Token

-- ========================================================== reducer state

/-- What a group is reduced to under the plain rules. -/
inductive Flow where
  /-- Tokens to be handed on, and whose they were. -/
  | transfer (owner : UInt8) (remaining : Nat)
  /-- So many substates were found. -/
  | count (number : Nat)
deriving DecidableEq

instance : ReducerState Flow where
  kind
    | .transfer .. => transfer
    | .count _ => counted

namespace Plain

-- ================================================================= bodies

/-- What a rule makes of an input and a reducer state. -/
abbrev Handler := Input Object → Option Flow → Script (Option Flow)

/-- Drops the reducer state. -/
def drop : Handler := fun _ _ => return none

/-- Leaves the reducer state as it is. -/
def keep : Handler := fun _ state => return state

/-- Pays into the fee reserve, or announces a resource. -/
def syscall : Handler := fun input _ =>
  match input with
  | .call (0 :: arguments) => do
      if arguments.length < 8 then Script.reject "bad deposit"
      let _ ← Script.act (.deposit .native (Amount.clamp (Bytes.toNatBE (arguments.take 8))))
      return none
  | .call (1 :: addr) => do
      let definition ← Script.resource ⟨addr⟩
      let _ ← Script.act (.emit definition.addr.bytes)
      return none
  | .call _ => Script.reject "unknown syscall"
  | _ => Script.reject "expected call data"

/-- Opens a transfer of the tokens. -/
def takeUp : Handler := fun input _ =>
  match input with
  | .substate (.tokens owner amount) => return some (.transfer owner amount)
  | _ => Script.reject "expected tokens"

/-- Hands tokens on from the transfer, which ends when nothing remains. -/
def handOver : Handler := fun input state =>
  match input, state with
  | .substate (.tokens _ amount), some (.transfer owner remaining) => do
      if remaining < amount then Script.reject "transfer overspends input"
      return if remaining = amount then none else some (.transfer owner (remaining - amount))
  | _, _ => Script.reject "expected tokens"

/-- As far as resources may be created now. -/
def allocate : Handler := fun _ _ => do
  let _ ← Script.act .checkAllocation
  return none

/-- Pulls what the scan offers, at most so many, and adds up the tokens. The
first tokens say whose they are. -/
def sweep : Nat → Option UInt8 → Nat → Script (Option UInt8 × Nat)
  | 0, owner, total => return (owner, total)
  | left + 1, owner, total => do
      match ← Script.pull with
      | none => return (owner, total)
      | some (.error cause) => throw cause
      | some (.ok (.tokens holder amount)) =>
          if 0x10000000000000000 ≤ total + amount then Script.reject "amount overflow"
          sweep left (owner.or (some holder)) (total + amount)
      | some (.ok _) => sweep left owner total

/-- Opens a transfer of all tokens the scan finds, if they are worth anything. -/
def sweepAll : Handler := fun input _ =>
  match input with
  | .index _ => do
      let (owner, total) ← sweep (← Script.pending) none 0
      return if total = 0 then none else owner.map (.transfer · total)
  | _ => Script.reject "expected index scan"

/-- Pulls what the scan offers, at most so many, and counts it. -/
def tally : Nat → Nat → Script Nat
  | 0, number => return number
  | left + 1, number => do
      match ← Script.pull with
      | none => return number
      | some (.error cause) => throw cause
      | some (.ok _) => tally left (number + 1)

/-- Counts all the scan finds. -/
def tallyAll : Handler := fun input _ =>
  match input with
  | .index _ => return some (.count (← tally (← Script.pending) 0))
  | _ => Script.reject "expected index scan"

-- ================================================================== rules

/-- A rule without an authorizer. -/
def rule (level : PermissionLevel) (handler : Handler) : Procedure Object Flow where
  requiredLevel _ := level
  authorize _ := Authorizer.allow
  body input state := handler input state

/-- A rule on tokens for those whose tokens they are. -/
def ownerRule (handler : Handler) : Procedure Object Flow :=
  { rule .user handler with authorize := Check.owner.run }

end Plain

open Plain in
/-- The plain rules. -/
def plainRules : List (ProcedureKey × Procedure Object Flow) := [
  (⟨.void, .syscall⟩, rule .user syscall),
  (⟨.void, .substate .down tokensTag⟩, ownerRule takeUp),
  (⟨transfer, .substate .up tokensTag⟩, rule .user handOver),
  (⟨transfer, .close⟩, rule .user keep),
  (⟨.void, .substate .up tokensTag⟩, rule .superUser drop),
  (⟨.void, .substate .read tokensTag⟩, rule .user drop),
  (⟨.void, .substate .up resourceTag⟩, rule .user allocate),
  (⟨.void, .substate .read resourceTag⟩, rule .user drop),
  (⟨.void, .substate .up parentTag⟩, rule .user drop),
  (⟨.void, .substate .down validatorTag⟩, rule .user drop),
  (⟨.void, .substate .read validatorTag⟩, rule .user drop),
  (⟨.void, .substate .downIndex tokensTag⟩, rule .user sweepAll),
  (⟨.void, .substate .readIndex tokensTag⟩, rule .user tallyAll),
  (⟨counted, .close⟩, rule .user drop)]

end LedgerCore.Token
