/-
What makes a wire form reliable. A type is `Wire.Lawful` if all of its values
are written with plain strings and read back from what was written wherever
there is room for that. Then text that is written is read as what it was
written for (`parse?_print`), and no two values are written alike
(`print_injective`).

Laws are put together like the forms themselves. Room is what makes this go
through: a record or list that fits leaves each of its parts the room to fit
into (`record?_record`, `list?_map`).
-/
import LedgerCore.Proofs.Json.Value
import LedgerCore.Wire

namespace LedgerCore

open Json

namespace Wire

-- ========================================================================= laws

/-- Reading undoes writing wherever what was written fits. -/
class Lawful (α : Type) [Wire α] : Prop where
  plain : ∀ a : α, (encode a).Plain
  /-- What is there is not written as if it were left out. -/
  present : ∀ a : α, encode a ≠ .null
  decode_encode : ∀ {room : Nat} (a : α), (encode a).depth ≤ room →
    decode room (encode a) = some a

/-- Whether what is written for a value can be read at all. -/
def Fits {α : Type} [Wire α] (a : α) : Prop := (encode a).depth ≤ maxNesting

section Lawful

variable {α : Type} [Wire α] [Lawful α]

/-- The text of a value is read as that value. -/
theorem parse?_print {a : α} (fits : Fits a) : parse? (print a) = some a := by
  rw [parse?, print, (Lawful.plain a).ofText?_text, Option.bind_eq_bind, Option.bind_some]
  exact Lawful.decode_encode a fits

/-- No two values have the same text, even if it is nested too deeply to be
read. -/
theorem print_injective : Function.Injective (print : α → String) := by
  intro a b same
  have values : encode a = encode b := by
    have read := (Lawful.plain a).ofText?_text
    rw [show (encode a).text = (encode b).text from same, (Lawful.plain b).ofText?_text] at read
    exact (Option.some.inj read).symm
  have back := Lawful.decode_encode a (Nat.le_refl _)
  rw [values, Lawful.decode_encode b (Nat.le_refl _)] at back
  exact (Option.some.inj back).symm

end Lawful

end Wire

namespace Json.Value

variable {α : Type}

-- ======================================================================== lists

/-- A list that fits is read item by item. -/
theorem list?_map {write : α → Value} {item? : Nat → Value → Option α} {values : List α}
    {room : Nat} (fits : (array (values.map write)).depth ≤ room)
    (h : ∀ {inner : Nat} (a : α), (write a).depth ≤ inner → item? inner (write a) = some a) :
    list? item? room (array (values.map write)) = some values := by
  cases room with
  | zero => cases fits
  | succ inner =>
      rw [depth_array_le, List.forall_mem_map] at fits
      rw [list?, items?, Option.bind_eq_bind, Option.bind_some]
      induction values with
      | nil => rfl
      | cons a rest ih =>
          obtain ⟨first, others⟩ := List.forall_mem_cons.mp fits
          simp [h a first, ih others]

theorem plain_map {write : α → Value} {values : List α} (h : ∀ a, (write a).Plain) :
    (array (values.map write)).Plain :=
  .array (List.forall_mem_map.mpr fun a _ => h a)

/-- A byte string that fits is read back. -/
theorem bytes?_of_fits {bytes : Bytes} {room : Nat} (fits : (ofBytes bytes).depth ≤ room) :
    bytes? room (ofBytes bytes) = some bytes := by
  cases room with
  | zero => cases fits
  | succ inner => exact bytes?_ofBytes bytes inner

theorem plain_ofBytes (bytes : Bytes) : (ofBytes bytes).Plain :=
  plain_map fun b => .natural b.toNat

@[simp] theorem depth_ofBytes_le (bytes : Bytes) (n : Nat) : (ofBytes bytes).depth ≤ n + 1 := by
  simp [ofBytes]

-- ====================================================================== records

variable {names : List String} {fields : Fields} {room : Nat}

/-- Of an object with plain keys, all of them known and distinct, every field
is taken. -/
theorem named?_plainFields (known : ∀ field ∈ fields, field.1 ∈ names)
    (distinct : (fields.map Prod.fst).Nodup) :
    named? names (plainFields fields) = some fields := by
  induction fields with
  | nil => rfl
  | cons field rest ih =>
      obtain ⟨first, others⟩ := List.forall_mem_cons.mp known
      obtain ⟨new, distinct⟩ := List.nodup_cons.mp distinct
      have absent : rest.lookup field.1 = none := by
        rw [List.lookup_eq_none_iff]
        intro other hother
        rw [bne_iff_ne]
        intro same
        apply new
        rw [same]
        exact List.mem_map_of_mem hother
      rw [plainFields, List.map_cons, named?, Glyph.text?_ofString]
      have found := ih others distinct
      rw [plainFields] at found
      simp [found, first, absent]

/-- A record that was written with some of the names, in order, is read with
these fields. -/
theorem fields?_record (h : (fields.map Prod.fst).Sublist names) (distinct : names.Nodup) :
    fields? names (record fields) = some fields :=
  named?_plainFields (fun _ hfield => h.subset (List.mem_map_of_mem hfield)) (h.nodup distinct)

/-- A record fits where there is room for itself and for its fields. -/
theorem room_of_record (fits : (record fields).depth ≤ room) :
    ∃ inner, room = inner + 1 ∧ ∀ field ∈ fields, field.2.depth ≤ inner := by
  cases room with
  | zero => cases fits
  | succ inner => exact ⟨inner, rfl, depth_record_le.mp fits⟩

/-- A record that fits is read, and then its fields fit. -/
theorem record?_record (names : List String) (h : (fields.map Prod.fst).Sublist names)
    (distinct : names.Nodup) (fits : (record fields).depth ≤ room) :
    ∃ inner, record? names room (record fields) = some (inner, fields)
      ∧ ∀ field ∈ fields, field.2.depth ≤ inner := by
  obtain ⟨inner, rfl, inside⟩ := room_of_record fits
  refine ⟨inner, ?_, inside⟩
  rw [record?, fields?_record h distinct]
  rfl

-- ===================================================================== variants

variable {name : String} {content : Value}

theorem tagged_eq_object (name : String) (content : Value) :
    tagged name content = object [(Glyph.ofString name, content)] := rfl

/-- A name around some content takes one level of the room for nesting. -/
theorem room_of_tagged (fits : (tagged name content).depth ≤ room) :
    ∃ inner, room = inner + 1 ∧ content.depth ≤ inner := by
  obtain ⟨inner, rfl, inside⟩ := room_of_record fits
  exact ⟨inner, rfl, inside (name, content) List.mem_cons_self⟩

theorem plain_tagged (h : content.Plain) : (tagged name content).Plain :=
  .record (List.forall_mem_singleton.mpr h)

end Json.Value

namespace Wire

-- ======================================================================= fields

/-- What is read piece by piece is read if every piece is. -/
theorem bind_eq_some_of {α β : Type} {x : Option α} {next : α → Option β} {a : α} {b : β}
    (h : x = some a) (h' : next a = some b) : (x >>= next) = some b := by
  rw [h]
  exact h'

/-- What is not left out is read as what it is. -/
theorem decode_option_of_ne {α : Type} [Wire α] {room : Nat} {value : Value} (h : value ≠ .null) :
    (decode room value : Option (Option α)) = some <$> decode room value := by
  cases value with
  | null => exact absurd rfl h
  | _ => rfl

section Fields

variable {α : Type} [Wire α] [Lawful α] {fields : Value.Fields} {name : String} {room : Nat}

/-- A field that is written is read back, wherever it stands among the
others. -/
theorem field?_of_lookup {a : α} (h : fields.lookup name = some (encode a))
    (fits : (encode a).depth ≤ room) : field? room fields name = some a := by
  rw [field?, h, Option.bind_eq_bind, Option.bind_some]
  exact Lawful.decode_encode a fits

/-- A value that may be left out is read back, whether it was or not. -/
theorem decode_encode_option (a : Option α) (fits : (encode a).depth ≤ room) :
    decode room (encode a) = some a := by
  cases a with
  | none => rfl
  | some a =>
      have back := Lawful.decode_encode a fits
      show decode room (encode a) = some (some a)
      rw [decode_option_of_ne (Lawful.present a), back]
      rfl

theorem optional?_of_lookup {a : Option α} (h : fields.lookup name = some (encode a))
    (fits : (encode a).depth ≤ room) : optional? room fields name = some a := by
  rw [optional?, h]
  exact decode_encode_option a fits

/-- Nothing is written as null, and something as itself. -/
theorem plain_option (a : Option α) : (encode a).Plain := by
  cases a with
  | none => exact .null
  | some a => exact Lawful.plain a

end Fields

-- ====================================================================== scalars

instance : Lawful UInt8 where
  plain n := .natural n.toNat
  present _ := nofun
  decode_encode n _ := Value.byte?_natural n

instance : Lawful UInt16 where
  plain n := .natural n.toNat
  present _ := nofun
  decode_encode n _ := by simp [decode, encode, Value.natural?, n.toNat_lt]

instance : Lawful UInt32 where
  plain n := .natural n.toNat
  present _ := nofun
  decode_encode n _ := by simp [decode, encode, Value.natural?, n.toNat_lt]

instance : Lawful Bool where
  plain := .bool
  present _ := nofun
  decode_encode _ _ := rfl

end Wire

end LedgerCore
