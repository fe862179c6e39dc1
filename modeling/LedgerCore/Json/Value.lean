/-
JSON values as trees. Objects keep their fields in order, repeated keys and
all, since what a repeated key means is for the reader of a particular type
to say. `Value.tokens` is the one compact form of a tree, and `ofTokens?`
reads any form.
-/
import LedgerCore.Json.Token

namespace LedgerCore.Json

/-- A JSON value. -/
inductive Value where
  | null
  | bool (b : Bool)
  | natural (n : Nat)
  /-- Any number that is not written as a natural one. -/
  | otherNumber
  | string (glyphs : List Glyph)
  | array (items : List Value)
  | object (fields : List (List Glyph × Value))

namespace Value

instance : Inhabited Value := ⟨null⟩

/-- The value of plain text. -/
def ofString (s : String) : Value := string (Glyph.ofString s)

/-- An object with plain keys. -/
def record (fields : List (String × Value)) : Value :=
  object (fields.map fun (key, value) => (Glyph.ofString key, value))

-- ================================================================ writing

mutual

/-- The compact form of a value. -/
def tokens : Value → List Token
  | null => [.null]
  | bool b => [.bool b]
  | natural n => [.natural n]
  | otherNumber => [.otherNumber]
  | string glyphs => [.string glyphs]
  | array items => .leftBracket :: (itemTokens items ++ [.rightBracket])
  | object fields => .leftBrace :: (fieldTokens fields ++ [.rightBrace])

/-- The items of an array, with commas between them. -/
def itemTokens : List Value → List Token
  | [] => []
  | [item] => item.tokens
  | item :: next :: rest => item.tokens ++ .comma :: itemTokens (next :: rest)

/-- The fields of an object, with commas between them. -/
def fieldTokens : List (List Glyph × Value) → List Token
  | [] => []
  | [(key, value)] => .string key :: .colon :: value.tokens
  | (key, value) :: next :: rest =>
      .string key :: .colon :: (value.tokens ++ .comma :: fieldTokens (next :: rest))

end

/-- The compact text of a value. -/
def text (value : Value) : String := String.ofList (value.tokens.flatMap Token.spell)

-- ================================================================ reading

mutual

/-- Reads the value at the front. -/
def read : (fuel : Nat) → List Token → Option (Value × List Token)
  | 0, _ => none
  | fuel + 1, input =>
      match input with
      | .null :: rest => some (null, rest)
      | .bool b :: rest => some (bool b, rest)
      | .natural n :: rest => some (natural n, rest)
      | .otherNumber :: rest => some (otherNumber, rest)
      | .string glyphs :: rest => some (string glyphs, rest)
      | .leftBracket :: .rightBracket :: rest => some (array [], rest)
      | .leftBracket :: rest => do
          let (items, rest) ← readItems fuel rest
          return (array items, rest)
      | .leftBrace :: .rightBrace :: rest => some (object [], rest)
      | .leftBrace :: rest => do
          let (fields, rest) ← readFields fuel rest
          return (object fields, rest)
      | _ => none

/-- Reads the items of an array and its closing bracket. -/
def readItems : (fuel : Nat) → List Token → Option (List Value × List Token)
  | 0, _ => none
  | fuel + 1, input => do
      let (item, rest) ← read fuel input
      match rest with
      | .rightBracket :: rest => return ([item], rest)
      | .comma :: rest => do
          let (items, rest) ← readItems fuel rest
          return (item :: items, rest)
      | _ => none

/-- Reads the fields of an object and its closing brace. -/
def readFields : (fuel : Nat) → List Token → Option (List (List Glyph × Value) × List Token)
  | 0, _ => none
  | fuel + 1, input =>
      match input with
      | .string key :: .colon :: rest => do
          let (value, rest) ← read fuel rest
          match rest with
          | .rightBrace :: rest => return ([(key, value)], rest)
          | .comma :: rest => do
              let (fields, rest) ← readFields fuel rest
              return ((key, value) :: fields, rest)
          | _ => none
      | _ => none

end

/-- The value that a list of tokens makes up. -/
def ofTokens? (input : List Token) : Option Value := do
  let (value, rest) ← read (2 * input.length + 1) input
  if rest.isEmpty then some value else none

/-- The value of a text, if it is JSON and nothing else. -/
def ofText? (text : String) : Option Value := do
  ofTokens? (← Token.ofText? text)

-- =============================================================== skipping

mutual

/-- Whether a value may stand where nobody looks at it: its strings hold no
unescaped control characters. -/
def isSkippable : Value → Bool
  | string glyphs => glyphs.all Glyph.isSkippable
  | array items => areSkippable items
  | object fields => fieldsSkippable fields
  | _ => true

@[inherit_doc isSkippable]
def areSkippable : List Value → Bool
  | [] => true
  | item :: rest => item.isSkippable && areSkippable rest

@[inherit_doc isSkippable]
def fieldsSkippable : List (List Glyph × Value) → Bool
  | [] => true
  | (key, value) :: rest =>
      key.all Glyph.isSkippable && value.isSkippable && fieldsSkippable rest

end

end Value

end LedgerCore.Json
