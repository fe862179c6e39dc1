/-
The wire forms of instructions and operation signatures. An instruction is
a variant under its name; its content is the operand itself, or a record
where there are several.
-/
import LedgerCore.Instruction
import LedgerCore.Procedure.Key
import LedgerCore.Wire.Substate

namespace LedgerCore

open Json Wire

namespace SubstateRef

/-- The operand alone; the kind of reference is in the instruction's name. -/
def toWire : SubstateRef → Value
  | committed id | virtual id | createdVirtual id => encode id
  | created index => encode index

end SubstateRef

namespace Instruction

/-- The content of an instruction, if it has any. -/
def contentToWire? : Instruction → Option Value
  | syscall data => some (.ofBytes data)
  | read target | down target => some target.toWire
  | readIndex index | downIndex index => some (encode index)
  | up id encoding => some (.record [("id", encode id), ("data", .ofBytes encoding)])
  | close | sig => none
  | msg content => some (.ofBytes content)
  | header version flags =>
      some (.record [("version", encode version), ("flags", encode flags)])
  | unknown opcode => some (.record [("opcode", encode opcode)])

/-- How an instruction is written. -/
def toWire (instruction : Instruction) : Value :=
  match instruction.contentToWire? with
  | some content => .tagged instruction.name content
  | none => .ofString instruction.name

/-- The bytes that are an instruction's content. -/
def heldBytes? : Option (Nat × Value) → Option Bytes
  | some (room, value) => value.bytes? room
  | none => none

/-- The record that is an instruction's content. -/
def heldRecord? (names : List String) : Option (Nat × Value) → Option (Nat × Value.Fields)
  | some (room, value) => value.record? names room
  | none => none

/-- Reads the instruction of a name. -/
def ofContent? (name : String) (content : Option (Nat × Value)) : Option Instruction :=
  match name with
  | "Syscall" => syscall <$> heldBytes? content
  | "Read" => (read ∘ .committed) <$> held? content
  | "VirtualRead" => (read ∘ .virtual) <$> held? content
  | "LocalRead" => (read ∘ .created) <$> held? content
  | "LocalVirtualRead" => (read ∘ .createdVirtual) <$> held? content
  | "ReadIndex" => readIndex <$> held? content
  | "DownIndex" => downIndex <$> held? content
  | "Up" => do
      let (room, fields) ← heldRecord? ["id", "data"] content
      let id ← field? room fields "id"
      let encoding ← (← fields.lookup "data").bytes? room
      return up id encoding
  | "Down" => (down ∘ .committed) <$> held? content
  | "VirtualDown" => (down ∘ .virtual) <$> held? content
  | "LocalDown" => (down ∘ .created) <$> held? content
  | "LocalVirtualDown" => (down ∘ .createdVirtual) <$> held? content
  | "End" => if isBare content then some close else none
  | "Sig" => if isBare content then some sig else none
  | "Msg" => msg <$> heldBytes? content
  | "Header" => do
      let (room, fields) ← heldRecord? ["version", "flags"] content
      let version ← field? room fields "version"
      let flags ← field? room fields "flags"
      return header version flags
  | "Unknown" => do
      let (room, fields) ← heldRecord? ["opcode"] content
      let opcode ← field? room fields "opcode"
      return unknown opcode
  | _ => none

end Instruction

instance : Wire Instruction where
  encode := Instruction.toWire
  decode room value := do
    let (name, content) ← value.variant? room
    Instruction.ofContent? name content

instance : Wire Op where
  encode op := .ofString op.name
  decode room value := do
    let (name, content) ← value.variant? room
    if isBare content then Op.all.find? (·.name == name) else none

instance : Wire OpSignature where
  encode signature :=
    .record [("op", encode signature.op), ("target", encode signature.target)]
  decode room value := do
    let (room, fields) ← value.record? ["op", "target"] room
    let op ← field? room fields "op"
    let target ← optional? room fields "target"
    return ⟨op, target⟩

end LedgerCore
