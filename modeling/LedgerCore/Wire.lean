/-
The wire form: the JSON form in which values of the ledger are exchanged.
Each type says once how it is written and how it is read; `print` and
`parse?` are the text of it. Writing has one form, reading is lenient where
JSON itself is, and refuses text that is nested too deeply.
-/
import LedgerCore.Json.Shape

namespace LedgerCore

open Json

/-- A type with a wire form. Reading is given the room that is left, the
number of containers that may still be entered. -/
class Wire (α : Type) where
  encode : α → Value
  decode : (room : Nat) → Value → Option α

namespace Wire

variable {α : Type}

/-- How deeply a text may be nested. -/
def maxNesting : Nat := 127

/-- The compact text of a value. -/
def print [Wire α] (a : α) : String := (encode a).text

/-- The value of a text, in any spelling. -/
def parse? [Wire α] (text : String) : Option α := do
  decode maxNesting (← Value.ofText? text)

-- =============================================================== scalars

instance : Wire UInt8 where
  encode n := .natural n.toNat
  decode _ value := UInt8.ofNat <$> value.natural? UInt8.size

instance : Wire UInt16 where
  encode n := .natural n.toNat
  decode _ value := UInt16.ofNat <$> value.natural? UInt16.size

instance : Wire UInt32 where
  encode n := .natural n.toNat
  decode _ value := UInt32.ofNat <$> value.natural? UInt32.size

instance : Wire Bool where
  encode := .bool
  decode _ value := value.bool?

instance [Wire α] : Wire (Option α) where
  encode
    | none => .null
    | some a => encode a
  decode room
    | .null => some none
    | value => some <$> decode room value

-- ================================================================= parts

/-- A list of values with a wire form. -/
def encodeList [Wire α] (values : List α) : Value := .array (values.map encode)

/-- Reads a list of values with a wire form. -/
def decodeList [Wire α] : Nat → Value → Option (List α) := Value.list? decode

/-- Reads a field of a record. -/
def field? [Wire α] (room : Nat) (fields : Value.Fields) (name : String) : Option α := do
  decode room (← fields.lookup name)

/-- Reads a field that a record may leave out. -/
def optional? [Wire α] (room : Nat) (fields : Value.Fields) (name : String) :
    Option (Option α) :=
  match fields.lookup name with
  | none => some none
  | some value => decode room value

/-- Reads the content of a variant that has some. -/
def held? [Wire α] : Option (Nat × Value) → Option α
  | some (room, value) => decode room value
  | none => none

/-- Whether a variant has no content, or `null` in its place. -/
def isBare : Option (Nat × Value) → Bool
  | none => true
  | some (_, .null) => true
  | _ => false

end Wire

end LedgerCore
