/-
One settings file, on its own. A file is read strictly: a number is an
integer within bounds, text is a string, and there is no value that stands
for being left out. Where nothing is read, anything may stand, with one
exception: entries of a table that are not asked for are gone through all the
same, and have to make sense as far as numbers go.
-/
import LedgerCore.Settings.Reading
import LedgerCore.Toml.Document

namespace LedgerCore

/-- A settings file as a tree of settings. A moment is a record without any
of the fields that settings have. -/
def Reading.file : Reading Toml.Value where
  natural? limit
    | .integer n => if 0 ≤ n ∧ n < limit then some n.toNat else none
    | _ => none
  text?
    | .string s => some s
    | _ => none
  items?
    | .array items => some items
    | _ => none
  fields? names
    | .table entries =>
        if entries.all fun (name, value) => names.contains name || value.isNumbered then
          some entries
        else none
    | .array items => some (names.zip items)
    | .moment _ => some []
    | _ => none
  isAbsent _ := false

/-- The settings of a file, given its text if there is such a file. -/
def Settings.ofFile (text : Option String) : Except SettingsError Settings :=
  match text with
  | none => .error .unreadable
  | some text =>
      match Toml.ofText? .strict text >>= Reading.file.settings? with
      | none => .error .malformed
      | some settings => .ok settings

end LedgerCore
