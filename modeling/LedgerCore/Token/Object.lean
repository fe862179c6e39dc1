/-
A small ledger of tokens: its substates and their encodings. A substate is
an amount of tokens with a one-byte owner, a resource definition, a parent
of virtual substates, or a validator. An encoding starts with the type tag;
sized parts are preceded by their length in one byte.
-/
import LedgerCore.Store

namespace LedgerCore.Token

-- ================================================================ objects

/-- A substate of the token ledger. -/
inductive Object where
  /-- An amount of tokens in someone's hands. -/
  | tokens (owner : UInt8) (amount : Nat)
  | resource (definition : ResourceDefinition)
  /-- A parent of virtual substates; the first byte of the data is their type. -/
  | parent (data : Bytes)
  | validator (key : Bytes)
deriving DecidableEq

namespace Object

/-- The type of an object. -/
def tag : Object → TypeTag
  | tokens .. => ⟨2⟩
  | resource _ => ⟨3⟩
  | parent _ => ⟨4⟩
  | validator _ => ⟨5⟩

instance : StateObject Object where
  tag := tag
  definition?
    | resource definition => some definition
    | _ => none
  childData?
    | parent data => some data
    | _ => none

/-- The text of a resource definition: address, mutability and owner, a dash
for no owner. -/
def definitionText (definition : ResourceDefinition) : String :=
  let owner := match definition.owner with
    | some key => Bytes.hex key.bytes
    | none => "-"
  "resource:" ++ definition.addr.text ++ ":" ++ (if definition.mutable then "true" else "false")
    ++ ":" ++ owner

/-- The text of an object. -/
def text : Object → String
  | tokens owner amount => "tokens:" ++ owner.toNat.repr ++ ":" ++ amount.repr
  | resource definition => definitionText definition
  | parent data => "parent:" ++ Bytes.hex data
  | validator key => "validator:" ++ Bytes.hex key

end Object

-- =============================================================== decoding

/-- The refusal of an encoding that ends too early. -/
def truncated : DecodeError := ⟨"truncated substate"⟩

/-- Splits off the first `count` bytes, if there are so many. -/
def splitOff (count : Nat) (bytes : Bytes) : Except DecodeError (Bytes × Bytes) :=
  if count ≤ bytes.length then .ok (bytes.take count, bytes.drop count) else .error truncated

/-- Splits off one byte. -/
def splitByte : Bytes → Except DecodeError (UInt8 × Bytes)
  | [] => .error truncated
  | b :: rest => .ok (b, rest)

/-- Splits off a part preceded by its length. -/
def splitSized (bytes : Bytes) : Except DecodeError (Bytes × Bytes) := do
  let (length, rest) ← splitByte bytes
  splitOff length.toNat rest

/-- Decodes the object at the front and hands back what follows it. -/
def decodeFront (bytes : Bytes) : Except DecodeError (Object × Bytes) := do
  let (tag, rest) ← splitByte bytes
  match tag with
  | 2 =>
      let (owner, rest) ← splitByte rest
      let (amount, rest) ← splitOff 8 rest
      return (.tokens owner (Bytes.toNatBE amount), rest)
  | 3 =>
      let (flags, rest) ← splitByte rest
      let (addr, rest) ← splitSized rest
      let isMutable := flags &&& 1 != 0
      if flags &&& 2 != 0 then
        let (owner, rest) ← splitSized rest
        return (.resource ⟨⟨addr⟩, isMutable, some ⟨owner⟩⟩, rest)
      else return (.resource ⟨⟨addr⟩, isMutable, none⟩, rest)
  | 4 =>
      let (data, rest) ← splitSized rest
      return (.parent data, rest)
  | 5 =>
      let (key, rest) ← splitSized rest
      return (.validator key, rest)
  | _ => .error ⟨"unknown tag 0x" ++ Bytes.hex [tag]⟩

/-- Decodes the object at the front and says how many bytes it took. -/
def decode (bytes : Bytes) : Except DecodeError (Object × Nat) := do
  let (object, rest) ← decodeFront bytes
  return (object, bytes.length - rest.length)

/-- The tags of the object types, and one that is reserved and never decodes. -/
def knownTags : List UInt8 := [2, 3, 4, 5, 7]

/-- The virtual substate of a child type and a key. -/
def synthesize (childType : UInt8) (key : Bytes) : Except DecodeError Object :=
  match childType, key with
  | 5, _ :: _ => .ok (.validator key)
  | 2, owner :: amount =>
      if amount.length = 8 then .ok (.tokens owner (Bytes.toNatBE amount)) else notVirtual
  | 3, _ => .ok (.resource ⟨⟨key⟩, false, none⟩)
  | 4, _ => .ok (.parent key)
  | _, _ => notVirtual
where
  /-- The refusal of a type and key that make no substate. -/
  notVirtual : Except DecodeError Object := .error ⟨"not a virtual substate"⟩

/-- The encodings of the token ledger. -/
def format : SubstateFormat Object where
  decode := decode
  knows tag := knownTags.contains tag.byte
  synthesize := synthesize

end LedgerCore.Token
