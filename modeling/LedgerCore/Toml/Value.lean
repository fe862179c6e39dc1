/-
The values of a settings file in TOML. A number is looked at twice: whether
it is written as numbers are, which is decided when the file is read, and
which number it is. Integers are kept exactly as far as 128 bits go. Text
that is well written but stands for no number that can be kept, such as a
fractional number that is too large, is a value as long as nobody asks for
the number.
-/
import LedgerCore.Binary64
import LedgerCore.Bytes
import LedgerCore.Toml.Moment

namespace LedgerCore.Toml

/-- A TOML value. -/
inductive Value where
  | string (s : String)
  | integer (n : Int)
  | float (x : Binary64)
  /-- What is written as a number but stands for none. -/
  | numberless
  | boolean (b : Bool)
  | moment (m : Moment)
  | array (items : List Value)
  | table (entries : List (String × Value))

namespace Value

instance : Inhabited Value := ⟨table []⟩

mutual

/-- Whether all numbers in a value are numbers that can be kept. -/
def isNumbered : Value → Bool
  | numberless => false
  | array items => areNumbered items
  | table entries => areNumberedEntries entries
  | _ => true

/-- Whether all numbers in items are. -/
def areNumbered : List Value → Bool
  | [] => true
  | item :: rest => item.isNumbered && areNumbered rest

/-- Whether all numbers in entries are. -/
def areNumberedEntries : List (String × Value) → Bool
  | [] => true
  | (_, value) :: rest => value.isNumbered && areNumberedEntries rest

end

-- ============================================================ underscores

/-- Whether each underscore stands between two digits. The text may have a
sign in front of it, which counts as a digit too. -/
def separates (isDigit : Char → Bool) : (behindDigit : Bool) → List Char → Bool
  | _, [] => true
  | behindDigit, '_' :: rest =>
      behindDigit && rest.head?.any isDigit && separates isDigit false rest
  | _, c :: rest => separates isDigit (isDigit c) rest

/-- Text without its underscores. -/
def joined (text : List Char) : List Char := text.filter (· != '_')

-- =============================================================== integers

/-- An integer, if it has at most 128 bits. -/
def ofInt (n : Int) : Value :=
  if -0x80000000000000000000000000000000 ≤ n ∧ n < 0x100000000000000000000000000000000 then
    integer n
  else numberless

/-- Whether a character tells a fractional number from an integer. -/
def isFractionMark (c : Char) : Bool := c == '.' || c == 'e' || c == 'E'

/-- Whether a character is a digit of some base. -/
def isAnyDigit (c : Char) : Bool := (Bytes.hexValue? c).isSome

/-- Reads an integer behind its sign. It has no leading zeros. Letters that
are digits of other bases may follow an underscore, but make no number. -/
def decimal? (signed negative : Bool) (text : List Char) : Option Value :=
  let rest := text.dropWhile Char.isDigit
  let wellBegun := (text.head? != some '0' || text == ['0'])
    && (rest.isEmpty || rest.head? == some '_')
  if text.isEmpty || !wellBegun || text.any isFractionMark
      || !separates isAnyDigit signed text then none
  else some <| match Text.natural? (joined text) with
    | some n => ofInt (Text.withSign negative n)
    | none => numberless

/-- Reads the digits of an integer in a base. Without any, they make no
number. -/
def inBase? (base : Nat) (text : List Char) : Option Value :=
  let isDigit := fun c => (Bytes.hexValue? c).any (· < base)
  if !(joined text).all isDigit || !separates isAnyDigit false text then none
  else some <| match joined text with
    | [] => numberless
    | digits => ofInt (digits.foldl (fun n c => base * n + (Bytes.hexValue? c).getD 0) 0)

/-- Reads an integer in another base than ten, which has no sign. -/
def based? : List Char → Option Value
  | '0' :: 'x' :: rest => inBase? 16 rest
  | '0' :: 'o' :: rest => inBase? 8 rest
  | '0' :: 'b' :: rest => inBase? 2 rest
  | _ => none

-- ===================================================== fractional numbers

/-- Reads digits at the front, of which there has to be one, and drops the
underscores among them. -/
def digits? (text : List Char) : Option (List Char × List Char) :=
  let isPart := fun c => c.isDigit || c == '_'
  let digits := joined (text.takeWhile isPart)
  if digits.isEmpty then none else some (digits, text.dropWhile isPart)

/-- Reads a fraction, which may be left out. -/
def fraction? : List Char → Option (List Char × List Char)
  | '.' :: rest => digits? rest
  | rest => some ([], rest)

/-- Reads an exponent, which may be left out or have leading zeros, up to the
end. -/
def exponent? : List Char → Option Int
  | [] => some 0
  | c :: rest => do
      let (negative, digits, rest) ← Text.signed? digits? rest
      if (c = 'e' ∨ c = 'E') ∧ rest = [] then
        some (Text.withSign negative (Text.digitsValue digits))
      else none

/-- Reads a fractional number behind its sign: a whole number with a
fraction, an exponent or both. -/
def fractional? (signed negative : Bool) (text : List Char) : Option Value := do
  let (whole, rest) ← digits? text
  let (fraction, rest) ← fraction? rest
  let exponent ← exponent? rest
  let leadingZero := text.head? == some '0' && whole != ['0']
  if !text.any isFractionMark || leadingZero || !separates Char.isDigit signed text then none
  else
    match Binary64.ofDecimal negative (Text.digitsValue (whole ++ fraction))
        (exponent - Int.ofNat fraction.length) with
    | .infinite _ => some numberless
    | x => some (float x)

-- ================================================================ scalars

/-- Reads a number behind its sign. -/
def number? (signed negative : Bool) (text : List Char) : Option Value :=
  if text = ['i', 'n', 'f'] then some (float (.infinite negative))
  else if text = ['n', 'a', 'n'] then some (float .nan)
  else (decimal? signed negative text).or (fractional? signed negative text)

/-- Reads a value that stands without quotes or brackets. -/
def ofScalar? (text : List Char) : Option Value :=
  match text with
  | ['t', 'r', 'u', 'e'] => some (boolean true)
  | ['f', 'a', 'l', 's', 'e'] => some (boolean false)
  | '-' :: rest => number? true true rest
  | '+' :: rest => number? true false rest
  | _ => (number? false false text).or ((based? text).or (moment <$> Moment.ofChars? text))

end Value

end LedgerCore.Toml
