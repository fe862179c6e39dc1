/-
The laws of the wire forms that instructions are made of, and of instructions
themselves. Most forms are records, whose fields are read one after the other.
A substate's name may hold another one, so its law is by induction; each
parent takes room of its own.
-/
import LedgerCore.Proofs.Wire.Lawful
import LedgerCore.Wire.Instruction

namespace LedgerCore

open Json Wire

-- ====================================================================== scalars

instance : Lawful Epoch where
  plain epoch := .natural epoch.toNat
  present _ := nofun
  decode_encode epoch _ := by
    have small : epoch.toNat < UInt64.size := epoch.lt_limit
    simp [decode, encode, Value.natural?, small, Epoch.ofNat?]

instance : Lawful EpochSpan where
  plain span := .natural span.toNat
  present _ := nofun
  decode_encode span _ := by
    have small : span.toNat < UInt64.size := span.lt_limit
    simp [decode, encode, Value.natural?, small, EpochSpan.ofNat?]

instance : Lawful Amount where
  plain amount := .natural amount.toNat
  present _ := nofun
  decode_encode amount _ := by
    simp [decode, encode, Value.natural?, Amount.ofNat?, amount.lt_limit]

instance : Lawful TypeTag where
  plain tag := Lawful.plain tag.byte
  present _ := nofun
  decode_encode tag fits := congrArg (TypeTag.mk <$> ·) (Lawful.decode_encode tag.byte fits)

instance : Lawful Hash where
  plain hash := Value.plain_ofBytes hash.bytes
  present _ := nofun
  decode_encode hash fits := by
    refine bind_eq_some_of (Value.list?_map fits fun b _ => Value.byte?_natural b) ?_
    exact hash.ofBytes?_bytes

instance : Lawful ResourceAddr where
  plain addr := Value.plain_ofBytes addr.bytes
  present _ := nofun
  decode_encode _ fits := congrArg (ResourceAddr.mk <$> ·) (Value.bytes?_of_fits fits)

instance : Lawful SignerKey where
  plain key := Value.plain_ofBytes key.bytes
  present _ := nofun
  decode_encode _ fits := congrArg (SignerKey.mk <$> ·) (Value.bytes?_of_fits fits)

-- =============================================================== substate names

namespace SubstateId

/-- What is written is plain, by induction on the id where ids nest. -/
theorem plain_toWire (id : SubstateId) : id.toWire.Plain := by
  induction id with
  | stored address => exact Value.plain_tagged (Value.plain_ofBytes address)
  | created index => exact Value.plain_tagged (Lawful.plain index)
  | virtual parent key ih =>
      apply Value.plain_tagged
      exact .record (by simp [ih, Value.plain_ofBytes])

/-- A name is read back where there is room for it, parents first. -/
theorem ofWire?_toWire (id : SubstateId) {room : Nat} (fits : id.toWire.depth ≤ room) :
    ofWire? room id.toWire = some id := by
  induction id generalizing room with
  | stored address =>
      obtain ⟨inner, rfl, content⟩ := Value.room_of_tagged fits
      unfold ofWire? toWire
      simp [Value.tagged_eq_object, Glyph.text?_ofString, Value.bytes?_of_fits content]
  | created index =>
      obtain ⟨inner, rfl, content⟩ := Value.room_of_tagged fits
      unfold ofWire? toWire
      simp [Value.tagged_eq_object, Glyph.text?_ofString, Lawful.decode_encode index content]
  | virtual parent key ih =>
      obtain ⟨middle, rfl, content⟩ := Value.room_of_tagged fits
      obtain ⟨inner, rfl, inside⟩ := Value.room_of_record content
      simp only [List.forall_mem_cons] at inside
      obtain ⟨hparent, hkey, -⟩ := inside
      have fields : Value.fields? ["parent", "key"]
          (.record [("parent", parent.toWire), ("key", .ofBytes key)])
            = some [("parent", parent.toWire), ("key", .ofBytes key)] :=
        Value.fields?_record (.refl _) (by decide)
      unfold ofWire? toWire
      simp [Value.tagged_eq_object, Glyph.text?_ofString, fields, List.lookup_cons, ih hparent,
        Value.bytes?_of_fits hkey]

end SubstateId

instance : Lawful SubstateId where
  plain := SubstateId.plain_toWire
  present id := by cases id <;> exact nofun
  decode_encode id fits := id.ofWire?_toWire fits

instance : Lawful SubstateIndex where
  plain index := .record (by simp [Value.plain_ofBytes, Lawful.plain])
  present _ := nofun
  decode_encode index fits := by
    obtain ⟨inner, fields, inside⟩ :=
      Value.record?_record ["prefix", "type_tag"] (.refl _) (by decide) fits
    simp only [List.forall_mem_cons] at inside
    obtain ⟨lead, tag, -⟩ := inside
    refine bind_eq_some_of fields ?_
    refine bind_eq_some_of rfl (bind_eq_some_of (Value.bytes?_of_fits lead) ?_)
    refine bind_eq_some_of (field?_of_lookup rfl tag) ?_
    rfl

-- ==================================================================== authority

instance : Lawful PermissionLevel where
  plain level := .string level.name
  present _ := nofun
  decode_encode level _ := by
    refine bind_eq_some_of (Value.variant?_ofString level.name _) ?_
    cases level <;> rfl

-- ====================================================== resources, transactions

instance : Lawful ResourceDefinition where
  plain definition := .record (by simp [Lawful.plain, plain_option])
  present _ := nofun
  decode_encode definition fits := by
    obtain ⟨inner, fields, inside⟩ :=
      Value.record?_record ["addr", "mutable", "owner"] (.refl _) (by decide) fits
    simp only [List.forall_mem_cons] at inside
    obtain ⟨addr, mutable, owner, -⟩ := inside
    refine bind_eq_some_of fields ?_
    refine bind_eq_some_of (field?_of_lookup rfl addr) ?_
    refine bind_eq_some_of (field?_of_lookup rfl mutable) ?_
    refine bind_eq_some_of (optional?_of_lookup rfl owner) ?_
    rfl

instance : Lawful Txn where
  plain txn := .record (by simp [Lawful.plain, Value.plain_ofBytes])
  present _ := nofun
  decode_encode txn fits := by
    obtain ⟨inner, fields, inside⟩ :=
      Value.record?_record ["id", "payload"] (.refl _) (by decide) fits
    simp only [List.forall_mem_cons] at inside
    obtain ⟨id, payload, -⟩ := inside
    refine bind_eq_some_of fields ?_
    refine bind_eq_some_of (field?_of_lookup rfl id) ?_
    refine bind_eq_some_of rfl (bind_eq_some_of (Value.bytes?_of_fits payload) ?_)
    rfl

-- ================================================================= instructions

namespace SubstateRef

theorem plain_toWire (target : SubstateRef) : target.toWire.Plain := by
  cases target with
  | committed id => exact Lawful.plain id
  | virtual id => exact Lawful.plain id
  | created index => exact Lawful.plain index
  | createdVirtual id => exact Lawful.plain id

end SubstateRef

namespace Instruction

/-- What an instruction carries is plain. -/
theorem plain_content {instruction : Instruction} {content : Value}
    (h : instruction.contentToWire? = some content) : content.Plain := by
  cases instruction with
  | syscall data => cases h; exact Value.plain_ofBytes data
  | read target => cases h; exact target.plain_toWire
  | readIndex index => cases h; exact Lawful.plain index
  | downIndex index => cases h; exact Lawful.plain index
  | up id encoding => cases h; exact .record (by simp [Lawful.plain, Value.plain_ofBytes])
  | down target => cases h; exact target.plain_toWire
  | close => cases h
  | sig => cases h
  | msg content => cases h; exact Value.plain_ofBytes content
  | header version flags => cases h; exact .record (by simp [Lawful.plain])
  | unknown opcode => cases h; exact .record (by simp [Lawful.plain])

/-- The content of an instruction that fits is read back under its name. -/
theorem ofContent?_name {instruction : Instruction} {content : Value}
    (h : instruction.contentToWire? = some content) {room : Nat} (fits : content.depth ≤ room) :
    ofContent? instruction.name (some (room, content)) = some instruction := by
  cases instruction with
  | syscall data => cases h; exact congrArg (syscall <$> ·) (Value.bytes?_of_fits fits)
  | read target =>
      cases h
      cases target with
      | committed id => exact congrArg ((read ∘ .committed) <$> ·) (Lawful.decode_encode id fits)
      | virtual id => exact congrArg ((read ∘ .virtual) <$> ·) (Lawful.decode_encode id fits)
      | created index =>
          exact congrArg ((read ∘ .created) <$> ·) (Lawful.decode_encode index fits)
      | createdVirtual id =>
          exact congrArg ((read ∘ .createdVirtual) <$> ·) (Lawful.decode_encode id fits)
  | readIndex index =>
      cases h
      exact congrArg (readIndex <$> ·) (Lawful.decode_encode index fits)
  | downIndex index =>
      cases h
      exact congrArg (downIndex <$> ·) (Lawful.decode_encode index fits)
  -- the fields are read in the order they were written
  | up id encoding =>
      cases h
      obtain ⟨inner, fields, inside⟩ :=
        Value.record?_record ["id", "data"] (.refl _) (by decide) fits
      simp only [List.forall_mem_cons] at inside
      obtain ⟨hid, hdata, -⟩ := inside
      refine bind_eq_some_of fields ?_
      refine bind_eq_some_of (field?_of_lookup rfl hid) ?_
      refine bind_eq_some_of rfl (bind_eq_some_of (Value.bytes?_of_fits hdata) ?_)
      rfl
  | down target =>
      cases h
      cases target with
      | committed id => exact congrArg ((down ∘ .committed) <$> ·) (Lawful.decode_encode id fits)
      | virtual id => exact congrArg ((down ∘ .virtual) <$> ·) (Lawful.decode_encode id fits)
      | created index =>
          exact congrArg ((down ∘ .created) <$> ·) (Lawful.decode_encode index fits)
      | createdVirtual id =>
          exact congrArg ((down ∘ .createdVirtual) <$> ·) (Lawful.decode_encode id fits)
  | close => cases h
  | sig => cases h
  | msg content => cases h; exact congrArg (msg <$> ·) (Value.bytes?_of_fits fits)
  | header version flags =>
      cases h
      obtain ⟨inner, fields, inside⟩ :=
        Value.record?_record ["version", "flags"] (.refl _) (by decide) fits
      simp only [List.forall_mem_cons] at inside
      obtain ⟨hversion, hflags, -⟩ := inside
      refine bind_eq_some_of fields ?_
      refine bind_eq_some_of (field?_of_lookup rfl hversion) ?_
      refine bind_eq_some_of (field?_of_lookup rfl hflags) ?_
      rfl
  | unknown opcode =>
      cases h
      obtain ⟨inner, fields, inside⟩ := Value.record?_record ["opcode"] (.refl _) (by decide) fits
      simp only [List.forall_mem_cons] at inside
      refine bind_eq_some_of fields ?_
      refine bind_eq_some_of (field?_of_lookup rfl inside.1) ?_
      rfl

/-- An instruction without content is read back from its name alone. -/
theorem ofContent?_bare {instruction : Instruction} (h : instruction.contentToWire? = none) :
    ofContent? instruction.name none = some instruction := by
  cases instruction with
  | close => rfl
  | sig => rfl
  | _ => cases h

end Instruction

instance : Lawful Instruction where
  plain instruction := by
    show instruction.toWire.Plain
    unfold Instruction.toWire
    split
    · next content => exact Value.plain_tagged (Instruction.plain_content content)
    · exact .string instruction.name
  present instruction := by
    show instruction.toWire ≠ .null
    unfold Instruction.toWire
    split <;> exact nofun
  decode_encode {room} instruction fits := by
    cases content : instruction.contentToWire? with
    | some value =>
        have written : encode instruction = .tagged instruction.name value := by
          show instruction.toWire = _
          rw [Instruction.toWire, content]
        rw [written] at fits ⊢
        obtain ⟨inner, rfl, inside⟩ := Value.room_of_tagged fits
        refine bind_eq_some_of (Value.variant?_tagged instruction.name value inner) ?_
        exact Instruction.ofContent?_name content inside
    | none =>
        have written : encode instruction = .ofString instruction.name := by
          show instruction.toWire = _
          rw [Instruction.toWire, content]
        rw [written]
        refine bind_eq_some_of (Value.variant?_ofString instruction.name room) ?_
        exact Instruction.ofContent?_bare content

instance : Lawful Op where
  plain op := .string op.name
  present _ := nofun
  decode_encode op _ := by
    refine bind_eq_some_of (Value.variant?_ofString op.name _) ?_
    cases op <;> rfl

instance : Lawful OpSignature where
  plain signature := .record (by simp [Lawful.plain, plain_option])
  present _ := nofun
  decode_encode signature fits := by
    obtain ⟨inner, fields, inside⟩ :=
      Value.record?_record ["op", "target"] (.refl _) (by decide) fits
    simp only [List.forall_mem_cons] at inside
    obtain ⟨op, target, -⟩ := inside
    refine bind_eq_some_of fields ?_
    refine bind_eq_some_of (field?_of_lookup rfl op) ?_
    refine bind_eq_some_of (optional?_of_lookup rfl target) ?_
    rfl

end LedgerCore
