/-
What all text is read by: classes of characters, and whole numbers in
decimal.

A class is given by ranges of code points, first and last one of each. The
tables of this library list their ranges in ascending order and keep them
apart, as version 17 of the Unicode character database has them. A natural
number is one or more digits; an integer may have a sign of either kind
before them.
-/
namespace LedgerCore.Text

-- ================================================== classes of characters

/-- Whether a character is in one of the ranges. -/
def inRanges (ranges : List (Nat × Nat)) (c : Char) : Bool :=
  ranges.any fun range => range.1 ≤ c.toNat && c.toNat ≤ range.2

-- ======================================================== decimal numbers

/-- The value of decimal digits, most significant first. -/
def digitsValue (digits : List Char) : Nat :=
  digits.foldl (fun n c => 10 * n + (c.toNat - '0'.toNat)) 0

/-- Reads a natural number. -/
def natural? (text : List Char) : Option Nat :=
  if text.isEmpty || !text.all Char.isDigit then none else some (digitsValue text)

/-- Reads a number after a sign, which may be left out; and whether the
sign is a minus. -/
def signed? {α : Type} (read? : List Char → Option α) : List Char → Option (Bool × α)
  | '-' :: rest => (true, ·) <$> read? rest
  | '+' :: rest => (false, ·) <$> read? rest
  | rest => (false, ·) <$> read? rest

/-- A number with its sign. -/
def withSign (negative : Bool) (n : Nat) : Int := if negative then -n else n

/-- Reads an integer. -/
def integer? (text : List Char) : Option Int := do
  let (negative, n) ← signed? natural? text
  return withSign negative n

end LedgerCore.Text
