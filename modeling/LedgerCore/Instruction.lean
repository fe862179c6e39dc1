/-
Instructions: the flat list a transaction is made of. `close` splits the
list into groups; everything between two closes is reduced by one chain of
procedure calls. Reading looks at a substate, `down` consumes one, `up`
creates one; what is read or consumed is said by a `SubstateRef`.
-/
import LedgerCore.Substate.Id
import LedgerCore.Substate.Index

namespace LedgerCore

-- ============================================================= references

/-- How an instruction refers to the substate it reads or consumes. -/
inductive SubstateRef where
  /-- A committed substate. -/
  | committed (id : SubstateId)
  /-- One synthesized from a committed parent. -/
  | virtual (id : SubstateId)
  /-- One created earlier in this transaction, by its boot-up number. -/
  | created (index : UInt32)
  /-- One synthesized from a parent created in this transaction. -/
  | createdVirtual (id : SubstateId)
deriving DecidableEq

-- =========================================================== instructions

/-- One step of a transaction. -/
inductive Instruction where
  /-- A system call with opaque call data. -/
  | syscall (data : Bytes)
  /-- Look at a substate. -/
  | read (target : SubstateRef)
  /-- Scan the substates an index selects. -/
  | readIndex (index : SubstateIndex)
  /-- Scan the substates an index selects and consume each one pulled. -/
  | downIndex (index : SubstateIndex)
  /-- Create a substate. -/
  | up (id : SubstateId) (encoding : Bytes)
  /-- Consume a substate. -/
  | down (target : SubstateRef)
  /-- Close the current group. -/
  | close
  /-- A signature marker. -/
  | sig
  /-- An attached message, not interpreted. -/
  | msg (content : Bytes)
  /-- A transaction header, not interpreted. -/
  | header (version flags : UInt8)
  /-- An opcode nobody recognizes. -/
  | unknown (opcode : UInt8)
deriving DecidableEq

namespace Instruction

/-- The name a kind of instruction goes by on the wire and in reports. -/
def name : Instruction → String
  | syscall _ => "Syscall"
  | read (.committed _) => "Read"
  | read (.virtual _) => "VirtualRead"
  | read (.created _) => "LocalRead"
  | read (.createdVirtual _) => "LocalVirtualRead"
  | readIndex _ => "ReadIndex"
  | downIndex _ => "DownIndex"
  | up .. => "Up"
  | down (.committed _) => "Down"
  | down (.virtual _) => "VirtualDown"
  | down (.created _) => "LocalDown"
  | down (.createdVirtual _) => "LocalVirtualDown"
  | close => "End"
  | sig => "Sig"
  | msg _ => "Msg"
  | header .. => "Header"
  | unknown _ => "Unknown"

end Instruction

end LedgerCore
