/-
Dates and times in settings files. Nothing in the settings is a moment, so
all that matters is which texts are one and how a moment is spelled in full
where text is wanted.
-/
import LedgerCore.Text

namespace LedgerCore.Toml

/-- A day of the calendar. -/
structure Date where
  year : Nat
  month : Nat
  day : Nat
deriving DecidableEq

/-- A time of day. Seconds may be left out; a fraction is in nanoseconds. -/
structure Clock where
  hour : Nat
  minute : Nat
  second : Option Nat
  fraction : Option Nat
deriving DecidableEq

/-- The distance to universal time. -/
inductive Offset where
  | universal
  | minutes (n : Int)
deriving DecidableEq

/-- A date, a time of day, or both, the latter with an offset perhaps. -/
inductive Moment where
  | date (date : Date)
  | clock (clock : Clock)
  | both (date : Date) (clock : Clock) (offset : Option Offset)
deriving DecidableEq

-- ================================================================ reading

/-- Reads two digits that make a number within bounds. -/
def twoDigits? (low high : Nat) : List Char → Option (Nat × List Char)
  | a :: b :: rest => do
      let n ← Text.natural? [a, b]
      if low ≤ n ∧ n ≤ high then some (n, rest) else none
  | _ => none

namespace Date

/-- Whether a year has a leap day. -/
def isLeap (year : Nat) : Bool :=
  year % 4 == 0 && (year % 100 != 0 || year % 400 == 0)

/-- The days of a month. -/
def daysIn (year month : Nat) : Nat :=
  if month = 2 then (if isLeap year then 29 else 28)
  else if month = 4 ∨ month = 6 ∨ month = 9 ∨ month = 11 then 30
  else 31

/-- Reads a date at the front. -/
def read? : List Char → Option (Date × List Char)
  | a :: b :: c :: d :: '-' :: rest => do
      let year ← Text.natural? [a, b, c, d]
      let (month, rest) ← twoDigits? 1 12 rest
      match rest with
      | '-' :: rest => do
          let (day, rest) ← twoDigits? 1 (daysIn year month) rest
          return (⟨year, month, day⟩, rest)
      | _ => none
  | _ => none

end Date

namespace Clock

/-- Reads a fraction of a second; digits beyond the ninth are dropped. -/
def fraction? : List Char → Option (Option Nat × List Char)
  | '.' :: rest => do
      let digits := rest.takeWhile Char.isDigit
      let nano := digits.take 9
      let n ← Text.natural? (nano ++ List.replicate (9 - nano.length) '0')
      if digits.isEmpty then none else some (some n, rest.dropWhile Char.isDigit)
  | rest => some (none, rest)

/-- Reads a time of day at the front. A minute may have a leap second. -/
def read? (text : List Char) : Option (Clock × List Char) := do
  let (hour, rest) ← twoDigits? 0 23 text
  match rest with
  | ':' :: rest => do
      let (minute, rest) ← twoDigits? 0 59 rest
      match rest with
      | ':' :: rest => do
          let (second, rest) ← twoDigits? 0 60 rest
          let (fraction, rest) ← fraction? rest
          return (⟨hour, minute, some second, fraction⟩, rest)
      | rest => return (⟨hour, minute, none, none⟩, rest)
  | _ => none

end Clock

namespace Offset

/-- Reads an offset, which may be left out, up to the end. -/
def read? : List Char → Option (Option Offset)
  | [] => some none
  | ['Z'] | ['z'] => some (some universal)
  | sign :: rest => do
      let (hours, rest) ← twoDigits? 0 23 rest
      match rest with
      | ':' :: rest => do
          let (minute, rest) ← twoDigits? 0 59 rest
          let n := 60 * hours + minute
          if rest ≠ [] then none
          else if sign = '+' then some (some (minutes n))
          else if sign = '-' then some (some (minutes (-n)))
          else none
      | _ => none

end Offset

/-- Reads a moment; a date and a time are joined by a letter or a blank. -/
def Moment.ofChars? (text : List Char) : Option Moment :=
  match Date.read? text with
  | some (day, []) => some (.date day)
  | some (day, joint :: rest) =>
      if joint = 'T' ∨ joint = 't' ∨ joint = ' ' then do
        let (time, rest) ← Clock.read? rest
        return .both day time (← Offset.read? rest)
      else none
  | none =>
      match Clock.read? text with
      | some (time, []) => some (.clock time)
      | _ => none

-- ================================================================ writing

/-- A number with leading zeros up to a width. -/
def padded (width n : Nat) : String :=
  let digits := n.repr
  String.ofList (List.replicate (width - digits.length) '0') ++ digits

/-- Drops zeros from the end, all but a first digit. -/
def trimZeros (digits : List Char) : List Char :=
  match (digits.reverse.dropWhile (· == '0')).reverse with
  | [] => ['0']
  | kept => kept

namespace Moment

/-- Year, month and day. -/
def dateText (date : Date) : String :=
  padded 4 date.year ++ "-" ++ padded 2 date.month ++ "-" ++ padded 2 date.day

/-- Hour and minute, and the second as far as it is known. -/
def clockText (clock : Clock) : String :=
  let second := match clock.second with
    | some n => ":" ++ padded 2 n
    | none => ""
  let fraction := match clock.fraction with
    | some n => "." ++ String.ofList (trimZeros (padded 9 n).toList)
    | none => ""
  padded 2 clock.hour ++ ":" ++ padded 2 clock.minute ++ second ++ fraction

/-- A letter for universal time, else hours and minutes with a sign. -/
def offsetText : Offset → String
  | .universal => "Z"
  | .minutes n =>
      let size := n.natAbs
      (if n < 0 then "-" else "+") ++ padded 2 (size / 60) ++ ":" ++ padded 2 (size % 60)

/-- The one full spelling of a moment. -/
def text : Moment → String
  | date d => dateText d
  | clock c => clockText c
  | both d c offset => dateText d ++ "T" ++ clockText c ++ (offset.map offsetText).getD ""

end Moment

end LedgerCore.Toml
