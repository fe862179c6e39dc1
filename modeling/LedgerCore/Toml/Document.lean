/-
Whole settings files in TOML: values with brackets and braces, statements
line by line, and the table they make up.

The fuel of a reader bounds the number of its steps, and a text is read with
twice as much fuel as it has characters; the room bounds how deeply brackets and
braces may be nested.
-/
import LedgerCore.Toml.Branch
import LedgerCore.Toml.Text

namespace LedgerCore.Toml

-- ================================================================= values

/-- How deeply brackets and braces may be nested. -/
def maxNesting : Nat := 80

/-- Whether a character does not end a value without quotes or brackets. -/
def isScalar (c : Char) : Bool :=
  !(['=', ',', '[', ']', '\x7b', '\x7d', ' ', '\t', '#', '\r', '\n'].contains c)

/-- Whether text is a date with a time behind a blank to come. -/
def awaitsTime (scalar rest : List Char) : Bool :=
  (match Date.read? scalar with
    | some (_, []) => true
    | _ => false)
    && match rest with
      | ' ' :: c :: _ => c.isDigit
      | _ => false

/-- Reads a value without quotes or brackets. -/
def readScalar (text : List Char) : Option (Value × List Char) := do
  let first := text.takeWhile isScalar
  let rest := text.dropWhile isScalar
  let (scalar, rest) :=
    if awaitsTime first rest then
      (first ++ ' ' :: rest.tail.takeWhile isScalar, rest.tail.dropWhile isScalar)
    else (first, rest)
  return (← Value.ofScalar? scalar, rest)

/-- An assignment: the first names, the last one, and the value. -/
abbrev Assignment := List String × String × Value

/-- Drops what may stand around the sign of an assignment: in braces, ends of
lines and comments as well as blanks. -/
def skipGap (inBraces : Bool) (text : List Char) : Option (List Char) :=
  if inBraces then skipVoid false text else some (skipBlanks text)

mutual

/-- Reads a value. -/
def readValue : (fuel room : Nat) → List Char → Option (Value × List Char)
  | 0, _, _ => none
  | fuel + 1, room, text =>
      match text, room with
      | '[' :: _, 0 | '\x7b' :: _, 0 => none
      | '[' :: rest, room + 1 => do
          let (items, rest) ← readItems fuel room rest
          return (.array items, rest)
      | '\x7b' :: rest, room + 1 => do
          let (assignments, rest) ← readAssignments fuel room rest
          return (← Branch.ofAssignments? assignments, rest)
      | text, _ =>
          if text.head? = some '"' ∨ text.head? = some '\'' then do
            let (s, rest) ← readString text
            return (.string (String.ofList s), rest)
          else readScalar text

/-- Reads the items of an array and its closing bracket. -/
def readItems : (fuel room : Nat) → List Char → Option (List Value × List Char)
  | 0, _, _ => none
  | fuel + 1, room, text => do
      match ← skipVoid false text with
      | ']' :: rest => return ([], rest)
      | text => do
          let (item, rest) ← readValue fuel room text
          match ← skipVoid false rest with
          | ']' :: rest => return ([item], rest)
          | ',' :: rest => do
              let (items, rest) ← readItems fuel room rest
              return (item :: items, rest)
          | _ => none

/-- Reads assignments in braces and the closing brace. -/
def readAssignments : (fuel room : Nat) → List Char → Option (List Assignment × List Char)
  | 0, _, _ => none
  | fuel + 1, room, text => do
      match ← skipVoid false text with
      | '\x7d' :: rest => return ([], rest)
      | text => do
          let (assignment, rest) ← readAssignment true fuel room text
          match ← skipVoid false rest with
          | '\x7d' :: rest => return ([assignment], rest)
          | ',' :: rest => do
              let (assignments, rest) ← readAssignments fuel room rest
              return (assignment :: assignments, rest)
          | _ => none

/-- Reads an assignment. -/
def readAssignment (inBraces : Bool) :
    (fuel room : Nat) → List Char → Option (Assignment × List Char)
  | 0, _, _ => none
  | fuel + 1, room, text => do
      let ((path, name), rest) ← readPath text
      match ← skipGap inBraces rest with
      | '=' :: rest => do
          let (value, rest) ← readValue fuel room (← skipGap inBraces rest)
          return ((path, name, value), rest)
      | _ => none

end

-- ============================================================= statements

/-- Reads the statement at the front, up to the end of its line. -/
def readStatement (fuel : Nat) (text : List Char) : Option (Statement × List Char) := do
  match text with
  | '[' :: '[' :: rest => do
      let ((path, name), rest) ← readPath rest
      match skipBlanks rest with
      | ']' :: ']' :: rest => return (.appendTable path name, ← endLine false rest)
      | _ => none
  | '[' :: rest => do
      let ((path, name), rest) ← readPath rest
      match skipBlanks rest with
      | ']' :: rest => return (.openTable path name, ← endLine false rest)
      | _ => none
  | text => do
      let ((path, name, value), rest) ← readAssignment false fuel maxNesting text
      return (.assign path name value, ← endLine false rest)

/-- Reads statements to the end. -/
def readStatements : (fuel : Nat) → List Char → Option (List Statement)
  | 0, _ => none
  | fuel + 1, text => do
      match ← skipVoid false text with
      | [] => return []
      | text => do
          let (statement, rest) ← readStatement fuel text
          return statement :: (← readStatements fuel rest)

/-- The table of a file; a byte order mark in front of it is passed over. -/
def ofText? (manner : Manner) (text : String) : Option Value := do
  let chars := skipMark text.toList
  Branch.ofStatements? manner (← readStatements (2 * chars.length + 4) chars)

end LedgerCore.Toml
