/-
Reading undoes spelling, token by token. The compact spelling of a list of
tokens is read as that list (`ofText?_spell`), which takes two things of it.
Its strings are plain text, as control characters that were not escaped and
lone surrogates are spelled like other glyphs. And no number is right behind
another, as then nothing would tell where the first one ends.

# Where a token ends

Every token but a number says itself where it ends. A number goes on as long
as there are digits, or what a fraction or an exponent begins with; `Stops` is
text that begins with none of them.
-/
import LedgerCore.Json.Token
import Mathlib.Data.List.Chain

namespace LedgerCore.Json

-- ===================================================================== glyphs

namespace Glyph

/-- The code unit that the four digits of a number spell is the number. -/
theorem unit?_hex4 {n : Nat} (h : n < 0x10000) :
    unit? (Nat.digitChar (n / 4096 % 16)) (Nat.digitChar (n / 256 % 16))
      (Nat.digitChar (n / 16 % 16)) (Nat.digitChar (n % 16)) = some n := by
  have value : ∀ m, Bytes.hexValue? (Nat.digitChar (m % 16)) = some (m % 16) :=
    fun m => Bytes.hexValue?_digitChar (m % 16) (Nat.mod_lt m (by decide))
  simp only [unit?, value, Option.bind_eq_bind, Option.bind_some, Option.pure_def,
    Option.some.injEq]
  omega

/-- What is read with a glyph in front. -/
def ahead (glyph : Glyph) (read : List Glyph × List Char) : List Glyph × List Char :=
  (glyph :: read.1, read.2)

/-- An escaped letter is read as what it stands for. -/
theorem readUnits_escape {letter c : Char} (notUnit : letter ≠ 'u')
    (h : escaped? letter = some c) (rest : List Char) :
    readUnits ('\\' :: letter :: rest) = (readUnits rest).map (ahead (char c)) := by
  rw [readUnits.eq_def]
  split
  · next heq => cases heq
  · next heq => cases heq
  · next heq => cases heq; exact absurd rfl notUnit
  · next heq =>
      cases heq
      rw [h]
      cases readUnits rest <;> rfl
  · next other heq =>
      cases heq
      exact absurd rfl (other letter rest rfl)

/-- An escaped number of four digits is read as the unit it is. -/
theorem readUnits_unit {a b c d : Char} {n : Nat} (h : unit? a b c d = some n)
    (rest : List Char) : readUnits ('\\' :: 'u' :: a :: b :: c :: d :: rest)
      = (readUnits rest).map (ahead (ofUnit n)) := by
  rw [readUnits, h]
  cases readUnits rest <;> rfl

/-- A character that can stand for itself is read as itself. -/
theorem readUnits_plain {c : Char} (notQuote : c ≠ '"') (notEscape : c ≠ '\\')
    (printable : ¬ c < ' ') (rest : List Char) :
    readUnits (c :: rest) = (readUnits rest).map (ahead (char c)) := by
  rw [readUnits.eq_def]
  split
  · next heq => cases heq
  · next heq => cases heq; exact absurd rfl notQuote
  · next heq => cases heq; exact absurd rfl notEscape
  · next heq => cases heq; exact absurd rfl notEscape
  · next heq =>
      cases heq
      rw [if_neg printable]
      cases readUnits rest <;> rfl

/-- Reading undoes the spelling of a character, whatever follows. -/
theorem readUnits_spell (c : Char) (rest : List Char) :
    readUnits ((char c).spell ++ rest) = (readUnits rest).map (ahead (char c)) := by
  simp only [spell]
  -- the seven characters with an escape of their own
  split
  · next h => subst h; exact readUnits_escape (by decide) rfl rest
  next notQuote =>
  split
  · next h => subst h; exact readUnits_escape (by decide) rfl rest
  next notEscape =>
  split
  · next h => subst h; exact readUnits_escape (by decide) rfl rest
  split
  · next h => subst h; exact readUnits_escape (by decide) rfl rest
  split
  · next h => subst h; exact readUnits_escape (by decide) rfl rest
  split
  · next h => subst h; exact readUnits_escape (by decide) rfl rest
  split
  · next h => subst h; exact readUnits_escape (by decide) rfl rest
  split
  · next control =>
      -- other control characters are spelled by their number
      have small : c.toNat < 32 := control
      have unit := readUnits_unit (unit?_hex4 (n := c.toNat) (by omega)) rest
      rw [ofUnit, if_neg (by omega), Char.ofNat_toNat] at unit
      exact unit
  · next printable => exact readUnits_plain notQuote notEscape printable rest

/-- Between characters there is nothing to join. -/
theorem joinPairs_map_char (cs : List Char) : joinPairs (cs.map char) = cs.map char := by
  induction cs with
  | nil => rfl
  | cons c rest ih => rw [List.map_cons, joinPairs, ih]; exact nofun

/-- Reading undoes the spelling of plain text up to the closing quote. -/
theorem read_spell (s : String) (rest : List Char) :
    read ((ofString s).flatMap spell ++ '"' :: rest) = some (ofString s, rest) := by
  have units : ∀ cs : List Char, readUnits ((cs.map char).flatMap spell ++ '"' :: rest)
      = some (cs.map char, rest) := by
    intro cs
    induction cs with
    | nil => rfl
    | cons c more ih =>
        rw [List.map_cons, List.flatMap_cons, List.append_assoc, readUnits_spell, ih]
        rfl
  rw [read, ofString, units]
  exact congrArg (fun glyphs => some (glyphs, rest)) (joinPairs_map_char s.toList)

end Glyph

namespace Token

-- ==================================================================== numbers

/-- Text that no number goes on with. -/
def Stops (text : List Char) : Prop :=
  ∀ c ∈ text.head?, c.isDigit = false ∧ c ≠ '.' ∧ c ≠ 'e' ∧ c ≠ 'E'

theorem isDigit_of_mem_toDigits {n : Nat} : ∀ c ∈ Nat.toDigits 10 n, c.isDigit = true :=
  fun _ => Nat.isDigit_of_mem_toDigits (by decide) (by decide)

/-- A number begins with a digit. -/
theorem toDigits_eq_cons (n : Nat) :
    ∃ c rest, Nat.toDigits 10 n = c :: rest ∧ c.isDigit = true := by
  obtain ⟨c, rest, digits⟩ := List.exists_cons_of_ne_nil Nat.toDigits_ne_nil
  exact ⟨c, rest, digits, isDigit_of_mem_toDigits c (digits ▸ List.mem_cons_self)⟩

theorem digitsValue_toDigits (n : Nat) : Text.digitsValue (Nat.toDigits 10 n) = n :=
  Nat.ofDigitChars_eq_foldl.symm.trans Nat.ofDigitChars_ten_toDigits

/-- No number but zero begins with the digit zero. -/
theorem head?_toDigits {n : Nat} (h : 0 < n) : (Nat.toDigits 10 n).head? ≠ some '0' := by
  induction n using Nat.strongRecOn with
  | ind n ih =>
      rw [Nat.toDigits_eq_if (by decide)]
      split
      · intro zero
        have none := Nat.digitChar_eq_zero.mp (Option.some.inj zero)
        omega
      · rw [List.head?_append_of_ne_nil _ Nat.toDigits_ne_nil]
        exact ih (n / 10) (by omega) (by omega)

/-- Digits are read up to what stops them. -/
theorem readDigits_append {digits rest : List Char} (some : digits ≠ [])
    (all : ∀ c ∈ digits, c.isDigit = true) (stops : Stops rest) :
    readDigits (digits ++ rest) = .some (digits, rest) := by
  have taken : rest.takeWhile Char.isDigit = [] := by
    cases rest with
    | nil => rfl
    | cons c rest => rw [List.takeWhile_cons, (stops c rfl).1]; rfl
  have dropped : rest.dropWhile Char.isDigit = rest := by
    cases rest with
    | nil => rfl
    | cons c rest => rw [List.dropWhile_cons, (stops c rfl).1]; rfl
  rw [readDigits, List.takeWhile_append_of_pos all, List.dropWhile_append_of_pos all, taken,
    dropped, List.append_nil]
  cases digits with
  | nil => exact absurd rfl some
  | cons c digits => rfl

/-- A whole number is read back, as it has no zeros in front. -/
theorem readWhole_toDigits (n : Nat) {rest : List Char} (stops : Stops rest) :
    readWhole (Nat.toDigits 10 n ++ rest) = some (Nat.toDigits 10 n, rest) := by
  rw [readWhole, readDigits_append Nat.toDigits_ne_nil isDigit_of_mem_toDigits stops]
  refine if_neg fun ⟨zero, notZero⟩ => ?_
  rcases Nat.eq_zero_or_pos n with rfl | positive
  · exact notZero (Nat.toDigits_zero 10)
  · exact head?_toDigits positive zero

/-- What stops a number is no fraction. -/
theorem skipFraction_of_stops {rest : List Char} (stops : Stops rest) :
    skipFraction rest = some (false, rest) := by
  unfold skipFraction
  split
  · exact absurd rfl (stops _ rfl).2.1
  · rfl

theorem skipExponent_of_stops {rest : List Char} (stops : Stops rest) :
    skipExponent rest = some (false, rest) := by
  unfold skipExponent
  split
  · next c rest =>
      obtain ⟨-, -, small, large⟩ := stops c rfl
      exact if_neg (not_or.mpr ⟨small, large⟩)
  · rfl

/-- A natural number is read back as written. -/
theorem readNumber_natural (n : Nat) {rest : List Char} (stops : Stops rest) :
    readNumber (Nat.toDigits 10 n ++ rest) = some (natural n, rest) := by
  unfold readNumber
  split
  next sign =>
  split at sign
  · next minus =>
      have first := congrArg List.head? minus
      rw [List.head?_append_of_ne_nil _ Nat.toDigits_ne_nil] at first
      exact absurd (isDigit_of_mem_toDigits '-' (List.mem_of_head? first)) (by decide)
  · cases sign
    simp [readWhole_toDigits n stops, skipFraction_of_stops stops, skipExponent_of_stops stops,
      digitsValue_toDigits]

/-- The spelling of any other number is read as one. -/
theorem readNumber_other {rest : List Char} (stops : Stops rest) :
    readNumber ('-' :: '0' :: rest) = some (otherNumber, rest) := by
  have whole := readWhole_toDigits 0 stops
  rw [Nat.toDigits_zero, List.singleton_append] at whole
  simp [readNumber, whole, skipFraction_of_stops stops, skipExponent_of_stops stops]

/-- What begins with a digit is a number. -/
theorem readOne_of_digit {c : Char} (digit : c.isDigit = true) (rest : List Char) :
    readOne (c :: rest) = readNumber (c :: rest) := by
  unfold readOne
  split
  iterate 10
    · next heq => cases heq; exact absurd digit (by decide)
  · rfl

-- ===================================================================== tokens

/-- Whether a token is a number. -/
def isNumber : Token → Bool
  | natural _ | otherNumber => true
  | _ => false

/-- A token whose string, if it is one, is plain text. -/
def Plain : Token → Prop
  | string glyphs => ∃ s, glyphs = Glyph.ofString s
  | _ => True

/-- Tokens none of which is a number right behind a number. -/
def Apart (tokens : List Token) : Prop :=
  tokens.IsChain fun token next => token.isNumber = true → next.isNumber = false

/-- A token begins with something, and with no blank. -/
theorem spell_eq_cons (token : Token) : ∃ c rest, token.spell = c :: rest ∧ isBlank c = false := by
  cases token with
  | natural n =>
      obtain ⟨c, rest, digits, digit⟩ := toDigits_eq_cons n
      refine ⟨c, rest, digits, ?_⟩
      simp only [isBlank, Bool.or_eq_false_iff, beq_eq_false_iff_ne]
      refine ⟨⟨⟨?_, ?_⟩, ?_⟩, ?_⟩ <;> rintro rfl <;> exact absurd digit (by decide)
  | bool b => cases b <;> exact ⟨_, _, rfl, rfl⟩
  | _ => exact ⟨_, _, rfl, rfl⟩

/-- A number ends where another token begins. -/
theorem stops_spell {token : Token} (h : token.isNumber = false) (rest : List Char) :
    Stops (token.spell ++ rest) := by
  cases token with
  | natural n => cases h
  | otherNumber => cases h
  | bool b => cases b <;> rintro c ⟨⟩ <;> decide
  | _ => rintro c ⟨⟩; decide

/-- Reading undoes the spelling of a token. -/
theorem readOne_spell {token : Token} (plain : token.Plain) {rest : List Char}
    (stops : token.isNumber = true → Stops rest) :
    readOne (token.spell ++ rest) = some (token, rest) := by
  cases token with
  | natural n =>
      obtain ⟨c, more, digits, digit⟩ := toDigits_eq_cons n
      have number := readNumber_natural n (stops rfl)
      rw [digits, List.cons_append] at number
      rw [spell, digits, List.cons_append, readOne_of_digit digit, number]
  | otherNumber => exact readNumber_other (stops rfl)
  | string glyphs =>
      obtain ⟨s, rfl⟩ := plain
      simp only [spell, List.cons_append, List.append_assoc, List.nil_append, readOne,
        Glyph.read_spell]
      rfl
  | bool b => cases b <;> rfl
  | _ => rfl

/-- Tokens are read back from their spelling, where no number runs into the
next token. -/
theorem readAll_spell {tokens : List Token} (plain : ∀ token ∈ tokens, token.Plain)
    (apart : Apart tokens) {fuel : Nat} (enough : tokens.length ≤ fuel) :
    readAll fuel (tokens.flatMap spell) = some tokens := by
  induction tokens generalizing fuel with
  | nil => cases fuel <;> rfl
  | cons token rest ih =>
      obtain ⟨follows, apart⟩ := List.isChain_cons.mp apart
      have stops : token.isNumber = true → Stops (rest.flatMap spell) := by
        intro number
        cases rest with
        | nil => exact nofun
        | cons next rest => exact stops_spell (follows next rfl number) _
      have first := readOne_spell (plain token List.mem_cons_self) stops
      obtain ⟨c, more, spelled, solid⟩ := token.spell_eq_cons
      rw [spelled, List.cons_append] at first
      cases fuel with
      | zero => cases enough
      | succ fuel =>
          have others := ih (fun other hother => plain other (List.mem_cons_of_mem _ hother)) apart
            (Nat.le_of_succ_le_succ enough)
          rw [List.flatMap_cons, spelled, List.cons_append, readAll, solid, if_neg nofun, first]
          simp [others]

/-- Every token is spelled with a character at least. -/
theorem length_le_flatMap_spell (tokens : List Token) :
    tokens.length ≤ (tokens.flatMap spell).length := by
  induction tokens with
  | nil => exact Nat.le_refl 0
  | cons token rest ih =>
      obtain ⟨c, more, spelled, -⟩ := token.spell_eq_cons
      rw [List.flatMap_cons, spelled, List.length_append, List.length_cons, List.length_cons]
      omega

/-- The compact spelling of tokens is read as these tokens. -/
theorem ofText?_spell {tokens : List Token} (plain : ∀ token ∈ tokens, token.Plain)
    (apart : Apart tokens) : ofText? (String.ofList (tokens.flatMap spell)) = some tokens := by
  rw [ofText?, String.toList_ofList, String.length_ofList]
  exact readAll_spell plain apart (length_le_flatMap_spell tokens)

end Token

end LedgerCore.Json
