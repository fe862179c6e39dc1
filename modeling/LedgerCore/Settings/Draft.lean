/-
Drafts: what the sources of settings say, put together. Each source is laid
over those before it. Tables merge name by name; everything else, lists
among it, is replaced as a whole.

The outermost names of a source may be paths, with points between names and
numbers of list items in brackets. A path makes what is missing on its way
and replaces what cannot be entered.
-/
import LedgerCore.Settings.Reading
import LedgerCore.Toml.Value

namespace LedgerCore

/-- What sources of settings say so far. -/
inductive Draft where
  | absent
  | boolean (b : Bool)
  | integer (n : Int)
  | float (x : Binary64)
  | text (s : String)
  | list (items : List Draft)
  | table (entries : List (String × Draft))

namespace Draft

instance : Inhabited Draft := ⟨absent⟩

/-- The entries of a draft; one that is no table has none. -/
def entries : Draft → List (String × Draft)
  | table entries => entries
  | _ => []

/-- The items of a draft; one that is no list has none. -/
def items : Draft → List Draft
  | list items => items
  | _ => []

/-- Changes the entry of a name, which is absent before if it is missing. -/
def alter (name : String) (change : Draft → Draft) :
    List (String × Draft) → List (String × Draft)
  | [] => [(name, change absent)]
  | (key, draft) :: rest =>
      if key = name then (key, change draft) :: rest
      else (key, draft) :: alter name change rest

-- ================================================================ overlay

mutual

/-- Lays a draft over another one. -/
def onto (upper lower : Draft) : Draft :=
  match upper with
  | table entries => table (entriesOnto entries lower.entries)
  | other => other

/-- Lays entries over others, one after the other. -/
def entriesOnto : (upper lower : List (String × Draft)) → List (String × Draft)
  | [], lower => lower
  | (name, draft) :: rest, lower => entriesOnto rest (alter name (onto draft) lower)

end

-- ================================================================== paths

/-- One step into a draft. -/
inductive Step where
  | name (name : String)
  /-- An item of a list, counted from its end if negative. -/
  | item (position : Int)
deriving DecidableEq

/-- Changes one item of a list, which is made long enough, at the front for
a position before it. -/
def alterItem (position : Int) (change : Draft → Draft) (items : List Draft) : List Draft :=
  let place := if position < 0 then position + items.length else position
  let front := List.replicate (-place).toNat absent ++ items
  let long := front ++ List.replicate (place.toNat + 1 - front.length) absent
  long.modify place.toNat change

/-- Changes what is at the end of a path. -/
def alterAt (change : Draft → Draft) : List Step → Draft → Draft
  | [], draft => change draft
  | .name name :: path, draft => table (alter name (alterAt change path) draft.entries)
  | .item position :: path, draft =>
      list (alterItem position (alterAt change path) draft.items)

/-- An integer, if it has at most 64 bits. -/
def word? (n : Int) : Option Int :=
  if -0x8000000000000000 ≤ n ∧ n < 0x8000000000000000 then some n else none

/-- The characters of names in paths. -/
def isNameChar (c : Char) : Bool := c.isAlphanum || c == '_' || c == '-'

/-- Reads the position of an item, which may have a minus and blanks on both
sides. -/
def position? (text : List Char) : Option Int :=
  let isBlank := fun c => c == ' ' || c == '\t'
  match ((text.dropWhile isBlank).reverse.dropWhile isBlank).reverse with
  | '+' :: _ => none
  | text => Text.integer? text >>= word?

/-- Reads steps behind the first name. -/
def readSteps : (fuel : Nat) → List Char → Option (List Step)
  | _, [] => some []
  | 0, _ => none
  | fuel + 1, '.' :: rest => do
      let name := rest.takeWhile isNameChar
      if name.isEmpty then none
      else return .name (String.ofList name) :: (← readSteps fuel (rest.dropWhile isNameChar))
  | fuel + 1, '[' :: rest => do
      let position ← position? (rest.takeWhile (· != ']'))
      match rest.dropWhile (· != ']') with
      | ']' :: rest => return .item position :: (← readSteps fuel rest)
      | _ => none
  | _, _ => none

/-- The path that a name of a source stands for; a name that is no path
stands for itself. -/
def path (name : String) : List Step :=
  let chars := name.toList
  let first := chars.takeWhile isNameChar
  let steps := if first.isEmpty then none
    else (.name (String.ofList first) :: ·) <$>
      readSteps chars.length (chars.dropWhile isNameChar)
  steps.getD [.name name]

/-- Lays one entry of a source over a draft. -/
def assign (draft : Draft) (name : String) (value : Draft) : Draft :=
  alterAt (onto value) (path name) draft

/-- Lays a whole source over a draft. -/
def layer (draft : Draft) (source : List (String × Draft)) : Draft :=
  source.foldl (fun draft (name, value) => draft.assign name value) draft

end Draft

-- ================================================================ reading

namespace Draft

/-- The words that count as numbers. -/
def wordNumber? (word : String) : Option Nat :=
  if word = "true" ∨ word = "on" ∨ word = "yes" then some 1
  else if word = "false" ∨ word = "off" ∨ word = "no" then some 0
  else none

/-- The largest number a fractional one is rounded to. -/
def largest : Nat := 0xffffffffffffffff

/-- The natural number a draft counts as. -/
def natural? : Draft → Option Nat
  | integer n => if 0 ≤ n then some n.toNat else none
  | boolean b => some b.toNat
  | float x => some (x.toNatAtMost largest)
  | text s =>
      (wordNumber? (Text.lower s)).or
        (match s.toList with
          | '+' :: rest => Text.natural? rest
          | rest => Text.natural? rest)
  | _ => none

/-- The text a draft counts as. -/
def text? : Draft → Option String
  | text s => some s
  | boolean b => some (if b then "true" else "false")
  | integer n => some n.repr
  | float x => some x.text
  | _ => none

end Draft

/-- A draft as a tree of settings. It is read leniently: numbers, words and
truth values count as each other where that makes sense. -/
def Reading.draft : Reading Draft where
  natural? limit draft := do
    let n ← draft.natural?
    if n < limit then some n else none
  text? := Draft.text?
  items?
    | .list items => some items
    | _ => none
  fields? names
    | .table entries => some entries
    | .list items => some (names.zip items)
    | _ => none
  isAbsent
    | .absent => true
    | _ => false

end LedgerCore
