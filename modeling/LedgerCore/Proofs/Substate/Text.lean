/-
Which substate a text names. Failures say by its text which substate they are
about, so no two substates may share one.

# Segments

A text is a path: the text of the outermost parent and then one key after the
other, each behind a slash. Its segments may be empty, so slashes may stand next
to each other and at either end, but no segment has a slash in it. So a text cut
at its slashes falls into exactly its segments (`splitOn_text`), and no bytes can
move from a key into what is in front of it.

# What the segments say

Each segment gives back what it was written from: bytes from hexadecimal digits,
a boot-up number from decimal ones. Only the first one can be of either kind, and
the two are told apart by a letter that is no hexadecimal digit. How many there
are tells virtual ids from the others, and the induction over the nesting of
names (`eq_of_segments_eq`) takes the last segment off both.
-/
import LedgerCore.Substate.Id

namespace LedgerCore

-- ================================================================ hexadecimal

namespace Bytes

theorem hex_inj {a b : Bytes} : a.hex = b.hex ↔ a = b := by
  refine ⟨fun h => Option.some_inj.mp ?_, congrArg hex⟩
  rw [← ofHex?_hex a, ← ofHex?_hex b, h]

/-- Hexadecimal text has hexadecimal digits only. -/
theorem not_mem_hex {c : Char} (h : hexValue? c = none) (bytes : Bytes) :
    c ∉ bytes.hex.toList := by
  have differs : ∀ n < 16, c ≠ Nat.digitChar n := by
    rintro n hn rfl
    rw [hexValue?_digitChar n hn] at h
    cases h
  rw [toList_hex, List.mem_flatMap]
  rintro ⟨b, -, hc⟩
  have hb := b.toNat_lt
  rcases List.mem_cons.mp hc with high | low
  · exact differs (b.toNat / 16) (by omega) high
  · exact differs (b.toNat % 16) (by omega) (List.mem_singleton.mp low)

end Bytes

namespace SubstateId

variable {a b : SubstateId} {index index' : UInt32}

-- =================================================================== segments

/-- What a text has between its slashes, from the outermost parent on. -/
def segments : SubstateId → List String
  | virtual parent key => parent.segments ++ [key.hex]
  | root => [root.text]

theorem segments_ne_nil (id : SubstateId) : id.segments ≠ [] := by
  cases id <;> simp [segments]

theorem slash_not_mem_hex (bytes : Bytes) : '/' ∉ bytes.hex.toList :=
  Bytes.not_mem_hex rfl bytes

/-- There is none in a boot-up number either. -/
theorem slash_not_mem_created (index : UInt32) : '/' ∉ (created index).text.toList := by
  have digits : '/' ∉ Nat.toDigits 10 index.toNat := fun h =>
    absurd (Nat.isDigit_of_mem_toDigits (by decide) (by decide) h) (by decide)
  simpa [text, Nat.toList_repr] using digits

/-- Cut at its slashes, a text falls into its segments, empty ones included. -/
theorem splitOn_text (id : SubstateId) :
    id.text.toList.splitOn '/' = id.segments.map String.toList := by
  induction id with
  | stored address => exact List.splitOn_eq_singleton (slash_not_mem_hex address)
  | created index => exact List.splitOn_eq_singleton (slash_not_mem_created index)
  | virtual parent key ih =>
      have path : (virtual parent key).text.toList
          = parent.text.toList ++ '/' :: key.hex.toList := by
        simp [text]
      rw [path, List.splitOn_append_cons_self, ih,
        List.splitOn_eq_singleton (slash_not_mem_hex key), segments, List.map_append,
        List.map_singleton]

example : (virtual (virtual (stored []) []) [0x0f]).segments = ["", "", "0f"] := rfl

-- ====================================================== what the segments say

/-- A boot-up number stands behind a word with a letter that no address has. -/
theorem text_stored_ne_created (address : Bytes) (index : UInt32) :
    (stored address).text ≠ (created index).text := by
  intro h
  have letter : 'l' ∈ (created index).text.toList := by simp [text]
  rw [← h] at letter
  exact Bytes.not_mem_hex rfl address letter

/-- Decimal digits say which number they were written for. -/
theorem text_created_inj : (created index).text = (created index').text ↔ index = index' := by
  constructor
  · intro h
    have decimal : index.toNat.repr = index'.toNat.repr := (String.append_right_inj _).mp h
    have digits : Nat.toDigits 10 index.toNat = Nat.toDigits 10 index'.toNat := by
      rw [← Nat.toList_repr, ← Nat.toList_repr, decimal]
    apply UInt32.toNat_inj.mp
    calc index.toNat
        = Nat.ofDigitChars 10 (Nat.toDigits 10 index.toNat) 0 :=
          Nat.ofDigitChars_ten_toDigits.symm
      _ = Nat.ofDigitChars 10 (Nat.toDigits 10 index'.toNat) 0 := by rw [digits]
      _ = index'.toNat := Nat.ofDigitChars_ten_toDigits
  · rintro rfl
    rfl

/-- A key stands behind at least one other segment. -/
theorem segments_virtual_ne (parent : SubstateId) (key : Bytes) (segment : String) :
    (virtual parent key).segments ≠ [segment] := by
  rw [segments, ne_eq, List.append_eq_singleton_iff]
  rintro (⟨alone, -⟩ | ⟨-, missing⟩)
  · exact segments_ne_nil parent alone
  · cases missing

/-- By induction on one name: outside the outermost parents the last segments
are keys, and the segments before them are those of the parents. -/
theorem eq_of_segments_eq (h : a.segments = b.segments) : a = b := by
  induction a generalizing b with
  | stored address =>
      cases b with
      | stored address' => rw [Bytes.hex_inj.mp (List.singleton_inj.mp h)]
      | created index =>
          exact absurd (List.singleton_inj.mp h) (text_stored_ne_created address index)
      | virtual parent key => exact absurd h.symm (segments_virtual_ne parent key _)
  | created index =>
      cases b with
      | stored address =>
          exact absurd (List.singleton_inj.mp h).symm (text_stored_ne_created address index)
      | created index' => rw [text_created_inj.mp (List.singleton_inj.mp h)]
      | virtual parent key => exact absurd h.symm (segments_virtual_ne parent key _)
  | virtual parent key ih =>
      cases b with
      | stored address => exact absurd h (segments_virtual_ne parent key _)
      | created index => exact absurd h (segments_virtual_ne parent key _)
      | virtual parent' key' =>
          obtain ⟨parents, keys⟩ := List.append_singleton_inj.mp h
          rw [ih parents, Bytes.hex_inj.mp keys]

/-- Two substates have the same text only if they are the same, however deep
their names nest, and also where an address or a key is empty. -/
theorem text_inj (a b : SubstateId) : a.text = b.text ↔ a = b := by
  constructor
  · intro h
    have cut : a.segments.map String.toList = b.segments.map String.toList := by
      rw [← splitOn_text, ← splitOn_text, h]
    exact eq_of_segments_eq ((List.map_inj_right fun _ _ => String.toList_inj.mp).mp cut)
  · rintro rfl
    rfl

end SubstateId

end LedgerCore
