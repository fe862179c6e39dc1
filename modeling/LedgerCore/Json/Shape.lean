/-
The shapes that JSON values are read as: bounded numbers, text, byte
strings, lists, records and variants.

Reading is given the room that is left: how many containers may still be
entered. An array or an object takes one of them, so values nested too
deeply are refused; parts that nobody looks at need no room. A record is an
object, or an array of its fields in order; of an object, fields with
unknown names are passed over and a known name may come once.
-/
import LedgerCore.Json.Value

namespace LedgerCore.Json.Value

-- =============================================================== scalars

/-- A natural number below a limit. -/
def natural? (limit : Nat) : Value → Option Nat
  | natural n => if n < limit then some n else none
  | _ => none

/-- A truth value. -/
def bool? : Value → Option Bool
  | bool b => some b
  | _ => none

/-- Text. -/
def text? : Value → Option String
  | string glyphs => Glyph.text? glyphs
  | _ => none

-- ================================================================= lists

/-- The items of an array, and the room inside it. -/
def items? : (room : Nat) → Value → Option (Nat × List Value)
  | room + 1, array items => some (room, items)
  | _, _ => none

/-- A list whose items are all readable. -/
def list? {α : Type} (item? : Nat → Value → Option α) (room : Nat) (value : Value) :
    Option (List α) := do
  let (room, items) ← value.items? room
  items.mapM (item? room)

/-- One byte. -/
def byte? (value : Value) : Option UInt8 := UInt8.ofNat <$> value.natural? UInt8.size

/-- A byte string: the bytes in an array, or the encoding of a string. -/
def bytes? (room : Nat) : Value → Option Bytes
  | string glyphs => some (glyphs.flatMap Glyph.bytes)
  | value => list? (fun _ => byte?) room value

/-- A byte string is written as an array. -/
def ofBytes (bytes : Bytes) : Value := array (bytes.map fun b => natural b.toNat)

-- =============================================================== records

/-- The fields of a record, by name. -/
abbrev Fields := List (String × Value)

/-- The fields of an object that have one of the names. -/
def named? (names : List String) : List (List Glyph × Value) → Option Fields
  | [] => some []
  | (key, value) :: rest => do
      let name ← Glyph.text? key
      let found ← named? names rest
      if name ∈ names then
        if (found.lookup name).isNone then some ((name, value) :: found) else none
      else if value.isSkippable then some found
      else none

/-- The fields of a record, all of them if it is an array. -/
def fields? (names : List String) : Value → Option Fields
  | object fields => named? names fields
  | array items => if items.length = names.length then some (names.zip items) else none
  | _ => none

/-- The fields of a record, which an array may leave out from the end. -/
def someFields? (names : List String) : Value → Option Fields
  | array items => if items.length ≤ names.length then some (names.zip items) else none
  | value => fields? names value

/-- The fields of a record, and the room inside it. -/
def record? (names : List String) : (room : Nat) → Value → Option (Nat × Fields)
  | 0, _ => none
  | room + 1, value => (room, ·) <$> fields? names value

-- ============================================================== variants

/-- A variant with content: an object whose one field has the variant's name. -/
def tagged (name : String) (content : Value) : Value := record [(name, content)]

/-- A variant: its name, and its content with the room for it. A variant
given by its name alone has no content. -/
def variant? : (room : Nat) → Value → Option (String × Option (Nat × Value))
  | _, string glyphs => (·, none) <$> Glyph.text? glyphs
  | room + 1, object [(key, content)] => (·, some (room, content)) <$> Glyph.text? key
  | _, _ => none

theorem variant?_tagged (name : String) (content : Value) (room : Nat) :
    (tagged name content).variant? (room + 1) = some (name, some (room, content)) := by
  simp [tagged, record, variant?, Glyph.text?_ofString]

theorem variant?_ofString (name : String) (room : Nat) :
    (ofString name).variant? room = some (name, none) := by
  cases room <;> simp [ofString, variant?, Glyph.text?_ofString]

theorem text?_ofString (s : String) : (ofString s).text? = some s := by
  simp [ofString, text?, Glyph.text?_ofString]

theorem byte?_natural (b : UInt8) : byte? (natural b.toNat) = some b := by
  simp [byte?, natural?, b.toNat_lt]

/-- A byte string is read back from the form it is written in. -/
theorem bytes?_ofBytes (bytes : Bytes) (room : Nat) :
    bytes? (room + 1) (ofBytes bytes) = some bytes := by
  have : ∀ bytes : Bytes,
      (bytes.map fun b => natural b.toNat).mapM (fun value => byte? value) = some bytes := by
    intro bytes
    induction bytes with
    | nil => rfl
    | cons b rest ih => simp [List.mapM_cons, byte?_natural, ih]
  simp [bytes?, ofBytes, list?, items?, this]

end LedgerCore.Json.Value
