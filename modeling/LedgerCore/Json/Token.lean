/-
The tokens of JSON text, and their one compact spelling. Reading skips
blanks between tokens and accepts every spelling of a token that JSON has.

Two things are kept that a reader of plain text would refuse, because where
a string stands for raw bytes they count: control characters that were not
escaped, and surrogates without a partner. Of numbers only the natural ones
are told apart, written without sign, fraction or exponent; nothing on the
ledger is any other number.
-/
import LedgerCore.Bytes
import LedgerCore.Text

namespace LedgerCore.Json

-- ================================================================= glyphs

/-- One character of a JSON string. -/
inductive Glyph where
  /-- A character as it is meant, however it was spelled. -/
  | char (c : Char)
  /-- A control character that was not escaped. -/
  | rawControl (c : Char)
  /-- An escaped surrogate without a partner. -/
  | surrogate (unit : Nat)
deriving DecidableEq

namespace Glyph

/-- The four hexadecimal digits of a code unit. -/
def hex4 (n : Nat) : List Char :=
  [Nat.digitChar (n / 4096 % 16), Nat.digitChar (n / 256 % 16),
    Nat.digitChar (n / 16 % 16), Nat.digitChar (n % 16)]

/-- How a character is spelled in compact text. -/
def spell : Glyph → List Char
  | char c =>
      if c = '"' then ['\\', '"']
      else if c = '\\' then ['\\', '\\']
      else if c = '\x08' then ['\\', 'b']
      else if c = '\t' then ['\\', 't']
      else if c = '\n' then ['\\', 'n']
      else if c = '\x0c' then ['\\', 'f']
      else if c = '\r' then ['\\', 'r']
      else if c < ' ' then '\\' :: 'u' :: hex4 c.toNat
      else [c]
  | rawControl c => [c]
  | surrogate unit => '\\' :: 'u' :: hex4 unit

/-- The glyph of an escaped code unit. -/
def ofUnit (n : Nat) : Glyph :=
  if 0xd800 ≤ n ∧ n ≤ 0xdfff then surrogate n else char (Char.ofNat n)

/-- The character behind a one-letter escape. -/
def escaped? : Char → Option Char
  | '"' => some '"'
  | '\\' => some '\\'
  | '/' => some '/'
  | 'b' => some '\x08'
  | 'f' => some '\x0c'
  | 'n' => some '\n'
  | 'r' => some '\r'
  | 't' => some '\t'
  | _ => none

/-- The code unit that four hexadecimal digits spell. -/
def unit? (a b c d : Char) : Option Nat := do
  let a ← Bytes.hexValue? a
  let b ← Bytes.hexValue? b
  let c ← Bytes.hexValue? c
  let d ← Bytes.hexValue? d
  return ((16 * a + b) * 16 + c) * 16 + d

/-- Joins each high surrogate with a low one right behind it. -/
def joinPairs : List Glyph → List Glyph
  | surrogate high :: surrogate low :: rest =>
      if high < 0xdc00 ∧ 0xdc00 ≤ low then
        char (Char.ofNat (0x10000 + (high - 0xd800) * 0x400 + (low - 0xdc00))) :: joinPairs rest
      else surrogate high :: joinPairs (surrogate low :: rest)
  | glyph :: rest => glyph :: joinPairs rest
  | [] => []

/-- Reads up to the closing quote, pairs not yet joined. -/
def readUnits : List Char → Option (List Glyph × List Char)
  | [] => none
  | '"' :: rest => some ([], rest)
  | '\\' :: 'u' :: a :: b :: c :: d :: rest => do
      let unit ← unit? a b c d
      let (glyphs, rest) ← readUnits rest
      return (ofUnit unit :: glyphs, rest)
  | '\\' :: letter :: rest => do
      let c ← escaped? letter
      let (glyphs, rest) ← readUnits rest
      return (char c :: glyphs, rest)
  | c :: rest => do
      let (glyphs, rest) ← readUnits rest
      return ((if c < ' ' then rawControl c else char c) :: glyphs, rest)

/-- Reads up to the closing quote. -/
def read (text : List Char) : Option (List Glyph × List Char) := do
  let (units, rest) ← readUnits text
  return (joinPairs units, rest)

/-- The glyphs of plain text. -/
def ofString (s : String) : List Glyph := s.toList.map char

/-- The text of glyphs that are all plain characters. -/
def text? (glyphs : List Glyph) : Option String :=
  String.ofList <$> glyphs.mapM fun
    | char c => some c
    | _ => none

/-- The bytes a glyph stands for: its encoding, and three bytes for a lone
surrogate. -/
def bytes : Glyph → Bytes
  | char c | rawControl c => (String.singleton c).toUTF8.toList
  | surrogate unit =>
      [UInt8.ofNat (0xe0 + unit / 0x1000), UInt8.ofNat (0x80 + unit / 0x40 % 0x40),
        UInt8.ofNat (0x80 + unit % 0x40)]

/-- Whether a glyph may stand in a string nobody looks at. -/
def isSkippable : Glyph → Bool
  | rawControl _ => false
  | _ => true

/-- Glyphs made of characters spell the text they were made of. -/
theorem text?_ofString (s : String) : text? (ofString s) = some s := by
  have : ∀ cs : List Char, (cs.map char).mapM
      (fun | char c => some c | _ => (none : Option Char)) = some cs := by
    intro cs
    induction cs with
    | nil => rfl
    | cons c rest ih => simp [List.mapM_cons, ih]
  simp [text?, ofString, this, String.ofList_toList]

end Glyph

-- ================================================================= tokens

/-- A token of JSON text. -/
inductive Token where
  | leftBracket
  | rightBracket
  | leftBrace
  | rightBrace
  | comma
  | colon
  | null
  | bool (b : Bool)
  | natural (n : Nat)
  /-- Any number that is not written as a natural one. -/
  | otherNumber
  | string (glyphs : List Glyph)
deriving DecidableEq

namespace Token

/-- The compact spelling of a token. -/
def spell : Token → List Char
  | leftBracket => ['[']
  | rightBracket => [']']
  | leftBrace => ['\x7b']
  | rightBrace => ['\x7d']
  | comma => [',']
  | colon => [':']
  | null => ['n', 'u', 'l', 'l']
  | bool true => ['t', 'r', 'u', 'e']
  | bool false => ['f', 'a', 'l', 's', 'e']
  | natural n => Nat.toDigits 10 n
  | otherNumber => ['-', '0']
  | string glyphs => '"' :: glyphs.flatMap Glyph.spell ++ ['"']

-- ================================================================ numbers

/-- Splits off decimal digits, at least one. -/
def readDigits (text : List Char) : Option (List Char × List Char) :=
  match text.takeWhile Char.isDigit with
  | [] => none
  | digits => some (digits, text.dropWhile Char.isDigit)

/-- Splits off the digits of a whole number, which has no leading zeros. -/
def readWhole (text : List Char) : Option (List Char × List Char) := do
  let (digits, rest) ← readDigits text
  if digits.head? = some '0' ∧ digits ≠ ['0'] then none else some (digits, rest)

/-- What follows a fraction, if there is one; and whether there is. -/
def skipFraction : List Char → Option (Bool × List Char)
  | '.' :: rest => do
      let (_, rest) ← readDigits rest
      return (true, rest)
  | rest => some (false, rest)

/-- What follows an exponent, if there is one; and whether there is. -/
def skipExponent : List Char → Option (Bool × List Char)
  | c :: rest =>
      if c = 'e' ∨ c = 'E' then do
        let unsigned := match rest with
          | '+' :: rest | '-' :: rest => rest
          | rest => rest
        let (_, rest) ← readDigits unsigned
        return (true, rest)
      else some (false, c :: rest)
  | [] => some (false, [])

/-- Reads a number. -/
def readNumber (text : List Char) : Option (Token × List Char) := do
  let (negative, rest) := match text with
    | '-' :: rest => (true, rest)
    | rest => (false, rest)
  let (digits, rest) ← readWhole rest
  let (fraction, rest) ← skipFraction rest
  let (exponent, rest) ← skipExponent rest
  if negative || fraction || exponent then return (otherNumber, rest)
  else return (natural (Text.digitsValue digits), rest)

-- ================================================================ reading

/-- The characters that may stand between tokens. -/
def isBlank (c : Char) : Bool := c == ' ' || c == '\t' || c == '\n' || c == '\r'

/-- Reads the token at the front. -/
def readOne : List Char → Option (Token × List Char)
  | '[' :: rest => some (leftBracket, rest)
  | ']' :: rest => some (rightBracket, rest)
  | '\x7b' :: rest => some (leftBrace, rest)
  | '\x7d' :: rest => some (rightBrace, rest)
  | ',' :: rest => some (comma, rest)
  | ':' :: rest => some (colon, rest)
  | 'n' :: 'u' :: 'l' :: 'l' :: rest => some (null, rest)
  | 't' :: 'r' :: 'u' :: 'e' :: rest => some (bool true, rest)
  | 'f' :: 'a' :: 'l' :: 's' :: 'e' :: rest => some (bool false, rest)
  | '"' :: rest => do
      let (glyphs, rest) ← Glyph.read rest
      return (string glyphs, rest)
  | text => readNumber text

/-- Reads tokens to the end of the text; the fuel bounds their number and
that of the blanks. -/
def readAll : (fuel : Nat) → List Char → Option (List Token)
  | _, [] => some []
  | 0, _ => none
  | fuel + 1, c :: rest =>
      if isBlank c then readAll fuel rest
      else do
        let (token, rest) ← readOne (c :: rest)
        let tokens ← readAll fuel rest
        return token :: tokens

/-- The tokens of a text, if it has no other parts. -/
def ofText? (text : String) : Option (List Token) :=
  readAll text.length text.toList

end Token

end LedgerCore.Json
