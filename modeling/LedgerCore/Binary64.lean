/-
Fractional numbers in settings. They are kept in binary with 53 digits, as
numbers of that kind usually are, so reading one rounds it, and writing it
takes the fewest decimal digits that read back as the same number.

All of it is exact arithmetic on natural numbers. A finite number is
`mantissa · 2 ^ exponent`; the decimals that round to it fill the interval
between the midpoints to its two neighbours, ends included when the mantissa
is even, and the neighbour below is nearer at a power of two.
-/
import LedgerCore.Text
import LedgerCore.Text.LowerCase

namespace LedgerCore

/-- A binary number of 53 digits. -/
inductive Binary64 where
  | nan
  | infinite (negative : Bool)
  /-- The number `mantissa · 2 ^ exponent`. -/
  | finite (negative : Bool) (mantissa : Nat) (exponent : Int)
deriving DecidableEq

namespace Binary64

/-- The exponent of the smallest numbers. -/
def minExponent : Int := -1074

/-- The exponent of the largest numbers. -/
def maxExponent : Int := 971

/-- The least mantissa of a number that is not among the smallest. -/
def leastNormal : Nat := 0x10000000000000

/-- The first number that is no mantissa. -/
def mantissaLimit : Nat := 0x20000000000000

-- =============================================================== rounding

/-- A quotient rounded to the nearest whole number, a half to the even one. -/
def roundHalfEven (num den : Nat) : Nat :=
  let twice := 2 * (num % den)
  if twice < den ∨ (twice = den ∧ num / den % 2 = 0) then num / den else num / den + 1

/-- The numerator and denominator of `base ^ exponent`. -/
def power (base : Nat) : Int → Nat × Nat
  | .ofNat n => (Nat.pow base n, 1)
  | .negSucc n => (1, Nat.pow base (n + 1))

/-- Nothing, with a sign. -/
def zero (negative : Bool) : Binary64 := finite negative 0 minExponent

/-- The nearest number to a quotient. -/
def ofRatio (negative : Bool) (num den : Nat) : Binary64 :=
  if num = 0 then zero negative
  else
    let estimate : Int := Int.ofNat num.log2 - Int.ofNat den.log2 - 53
    let (up, down) := power 2 estimate
    let wanted := if mantissaLimit * up * den ≤ num * down then estimate + 1 else estimate
    let exponent := max minExponent wanted
    let (up, down) := power 2 exponent
    let mantissa := roundHalfEven (num * down) (den * up)
    let (mantissa, exponent) :=
      if mantissa = mantissaLimit then (leastNormal, exponent + 1) else (mantissa, exponent)
    if maxExponent < exponent then infinite negative else finite negative mantissa exponent

/-- The nearest number to `digits · 10 ^ exponent`. A number far out of range
is told by its length alone: it has more than a quarter and at most a third
as many decimal digits as binary ones. -/
def ofDecimal (negative : Bool) (digits : Nat) (exponent : Int) : Binary64 :=
  if Int.ofNat (digits.log2 / 3) + exponent < -400 ∨ digits = 0 then zero negative
  else if 400 < Int.ofNat (digits.log2 / 4) + exponent then infinite negative
  else
    let (up, down) := power 10 exponent
    ofRatio negative (digits * up) down

-- ================================================================ reading

/-- Reads the exponent of a decimal, which may be left out. -/
def exponent? : List Char → Option Int
  | [] => some 0
  | c :: rest => if c = 'e' ∨ c = 'E' then Text.integer? rest else none

/-- Reads digits with a point among or around them, and an exponent. -/
def decimal? (text : List Char) : Option (Nat × Int) := do
  let whole := text.takeWhile Char.isDigit
  let (fraction, rest) := match text.dropWhile Char.isDigit with
    | '.' :: rest => (rest.takeWhile Char.isDigit, rest.dropWhile Char.isDigit)
    | rest => ([], rest)
  if whole.isEmpty && fraction.isEmpty then none
  else
    let exponent ← exponent? rest
    return (Text.digitsValue (whole ++ fraction), exponent - Int.ofNat fraction.length)

/-- Reads a number: a decimal, an infinity or no number at all, in letters
of either case. -/
def ofText? (text : String) : Option Binary64 := do
  let (negative, rest) ← Text.signed? some text.toList
  let word := Text.lower (String.ofList rest)
  if word = "nan" then return nan
  else if word = "inf" ∨ word = "infinity" then return infinite negative
  else
    let (digits, exponent) ← decimal? rest
    return ofDecimal negative digits exponent

-- ================================================================ writing

/-- The multiple of `10 ^ exponent` that is nearest to a number among those
that read back as the number; there may be none. -/
def nearestOnGrid? (mantissa : Nat) (binary exponent : Int) : Option Nat :=
  let (unit, unitDen) := power 2 (binary - 2)
  let (grid, gridDen) := power 10 exponent
  let scale := unit * gridDen
  let step := grid * unitDen
  let below := if mantissa = leastNormal ∧ minExponent < binary then 1 else 2
  let readsBack (n : Nat) : Bool :=
    let x := n * step
    let low := (4 * mantissa - below) * scale
    let high := (4 * mantissa + 2) * scale
    0 < n && if mantissa % 2 = 0 then low ≤ x && x ≤ high else low < x && x < high
  let floor := 4 * mantissa * scale / step
  let nearFloor := 2 * (4 * mantissa * scale % step) < step
  match readsBack floor, readsBack (floor + 1) with
  | true, true => some (if nearFloor then floor else floor + 1)
  | true, false => some floor
  | false, true => some (floor + 1)
  | false, false => none

/-- The fewest digits that read back, and the exponent of the last of them:
the coarsest grid that has a point close enough. -/
def shortest (mantissa : Nat) (exponent : Int) : Nat × Int :=
  if mantissa = 0 then (0, 0) else
  let found := (List.range 700).findSome? fun i =>
    let place : Int := 309 - Int.ofNat i
    (nearestOnGrid? mantissa exponent place).map (·, place)
  found.getD (0, 0)

/-- Digits with the point in its place and no exponent. -/
def positional (digits : Nat) : (exponent : Int) → String
  | .ofNat n => digits.repr ++ String.ofList (List.replicate n '0')
  | .negSucc n =>
      let places := n + 1
      let text := digits.repr.toList
      let padded := List.replicate (places + 1 - text.length) '0' ++ text
      let whole := padded.length - places
      String.ofList (padded.take whole) ++ "." ++ String.ofList (padded.drop whole)

/-- Decimal text without an exponent, and without a point where there is no
fraction. -/
def text : Binary64 → String
  | nan => "NaN"
  | infinite negative => if negative then "-inf" else "inf"
  | finite negative mantissa exponent =>
      let (digits, place) := shortest mantissa exponent
      (if negative then "-" else "") ++ positional digits place

-- ================================================================= whole

/-- The nearest natural number, a half going up, within a limit: what is
negative or no number at all becomes nothing, and what is too large the
limit. -/
def toNatAtMost (limit : Nat) : Binary64 → Nat
  | nan => 0
  | infinite negative => if negative then 0 else limit
  | finite true _ _ => 0
  | finite false mantissa exponent =>
      let (up, down) := power 2 exponent
      min limit ((2 * mantissa * up + down) / (2 * down))

end Binary64

end LedgerCore
