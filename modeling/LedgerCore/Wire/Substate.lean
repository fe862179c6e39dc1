/-
The wire forms of substates, resources and transactions: numbers and byte
strings stand for themselves, and a substate's name is a variant by where
the substate comes from.
-/
import LedgerCore.Context
import LedgerCore.Epoch
import LedgerCore.Wire

namespace LedgerCore

open Json Wire

-- =============================================================== scalars

instance : Wire Epoch where
  encode epoch := .natural epoch.toNat
  decode _ value := value.natural? UInt64.size >>= Epoch.ofNat?

instance : Wire EpochSpan where
  encode span := .natural span.toNat
  decode _ value := value.natural? UInt64.size >>= EpochSpan.ofNat?

instance : Wire Amount where
  encode amount := .natural amount.toNat
  decode _ value := value.natural? 0x100000000000000000000000000000000 >>= Amount.ofNat?

instance : Wire TypeTag where
  encode tag := encode tag.byte
  decode room value := TypeTag.mk <$> decode room value

/-- A digest is an array of its 32 bytes; a string is none. -/
instance : Wire Hash where
  encode hash := .ofBytes hash.bytes
  decode room value := value.list? (fun _ => Value.byte?) room >>= Hash.ofBytes?

instance : Wire ResourceAddr where
  encode addr := .ofBytes addr.bytes
  decode room value := ResourceAddr.mk <$> value.bytes? room

instance : Wire SignerKey where
  encode key := .ofBytes key.bytes
  decode room value := SignerKey.mk <$> value.bytes? room

-- ======================================================== substate names

namespace SubstateId

/-- How a name is written. -/
def toWire : SubstateId → Value
  | stored address => .tagged "Stored" (.ofBytes address)
  | created index => .tagged "Local" (encode index)
  | virtual parent key =>
      .tagged "Virtual" (.record [("parent", parent.toWire), ("key", .ofBytes key)])

/-- Reads a name; each parent takes the room of a variant and a record. -/
def ofWire? : (room : Nat) → Value → Option SubstateId
  | room + 1, .object [(key, content)] =>
      match Glyph.text? key with
      | some "Stored" => stored <$> content.bytes? room
      | some "Local" => created <$> decode room content
      | some "Virtual" =>
          match room with
          | 0 => none
          | room + 1 => do
              let fields ← content.fields? ["parent", "key"]
              let parent ← ofWire? room (← fields.lookup "parent")
              let key ← (← fields.lookup "key").bytes? room
              return virtual parent key
      | _ => none
  | _, _ => none

end SubstateId

instance : Wire SubstateId := ⟨SubstateId.toWire, SubstateId.ofWire?⟩

/-- The tag of an index is taken as it is given, whatever the leading bytes. -/
instance : Wire SubstateIndex where
  encode index := .record [("prefix", .ofBytes index.lead), ("type_tag", encode index.tag)]
  decode room value := do
    let (room, fields) ← value.record? ["prefix", "type_tag"] room
    let lead ← (← fields.lookup "prefix").bytes? room
    let tag ← field? room fields "type_tag"
    return ⟨lead, tag⟩

-- ============================================================= authority

namespace PermissionLevel

/-- The name a level goes by on the wire. -/
def name : PermissionLevel → String
  | user => "User"
  | superUser => "SuperUser"
  | system => "System"

/-- Every level, from the least to the most. -/
def all : List PermissionLevel := [user, superUser, system]

end PermissionLevel

instance : Wire PermissionLevel where
  encode level := .ofString level.name
  decode room value := do
    let (name, content) ← value.variant? room
    if isBare content then PermissionLevel.all.find? (·.name == name) else none

-- ============================================== resources, transactions

instance : Wire ResourceDefinition where
  encode definition :=
    .record [("addr", encode definition.addr), ("mutable", encode definition.mutable),
      ("owner", encode definition.owner)]
  decode room value := do
    let (room, fields) ← value.record? ["addr", "mutable", "owner"] room
    let addr ← field? room fields "addr"
    let mutable ← field? room fields "mutable"
    let owner ← optional? room fields "owner"
    return ⟨addr, mutable, owner⟩

instance : Wire Txn where
  encode txn := .record [("id", encode txn.id), ("payload", .ofBytes txn.payload)]
  decode room value := do
    let (room, fields) ← value.record? ["id", "payload"] room
    let id ← field? room fields "id"
    let payload ← (← fields.lookup "payload").bytes? room
    return ⟨id, payload⟩

end LedgerCore
