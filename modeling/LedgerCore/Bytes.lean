/-
Byte strings: the raw form of every identifier, encoding, key and payload
on the ledger. The file holds their two text forms (hexadecimal, for
people and protocols; quoted, for diagnostics) and the fixed-width number
encodings that substates and candidate ids are built from.

Hexadecimal text is read back by `ofHex?`, and the fixed-width encodings
have the width they are asked for, whatever the number.
-/
namespace LedgerCore

/-- A byte string. -/
abbrev Bytes := List UInt8

namespace Bytes

-- ============================================================ hexadecimal

/-- The two lower-case hexadecimal digits of a byte. -/
def hexDigits (b : UInt8) : List Char :=
  [Nat.digitChar (b.toNat / 16), Nat.digitChar (b.toNat % 16)]

/-- Lower-case hexadecimal text, two digits to the byte. -/
def hex (bytes : Bytes) : String :=
  String.ofList (bytes.flatMap hexDigits)

/-- The value of a hexadecimal digit of either case. -/
def hexValue? (c : Char) : Option Nat :=
  if '0' ≤ c ∧ c ≤ '9' then some (c.toNat - '0'.toNat)
  else if 'a' ≤ c ∧ c ≤ 'f' then some (c.toNat - 'a'.toNat + 10)
  else if 'A' ≤ c ∧ c ≤ 'F' then some (c.toNat - 'A'.toNat + 10)
  else none

/-- Reads pairs of hexadecimal digits. -/
def ofHexDigits? : List Char → Option Bytes
  | [] => some []
  | [_] => none
  | high :: low :: rest => do
      let h ← hexValue? high
      let l ← hexValue? low
      let tail ← ofHexDigits? rest
      return UInt8.ofNat (16 * h + l) :: tail

/-- Reads hexadecimal text; `none` when a digit is missing or no digit. -/
def ofHex? (text : String) : Option Bytes :=
  ofHexDigits? text.toList

theorem toList_hex (bytes : Bytes) : bytes.hex.toList = bytes.flatMap hexDigits := by
  simp [hex]

/-- A digit of a half byte reads back as that half byte. -/
theorem hexValue?_digitChar : ∀ n < 16, hexValue? (Nat.digitChar n) = some n := by
  decide

/-- Digits are read back, byte by byte. -/
theorem ofHexDigits?_flatMap (bytes : Bytes) :
    ofHexDigits? (bytes.flatMap hexDigits) = some bytes := by
  induction bytes with
  | nil => rfl
  | cons b rest ih =>
      have hb := b.toNat_lt
      have h := hexValue?_digitChar (b.toNat / 16) (by omega)
      have l := hexValue?_digitChar (b.toNat % 16) (by omega)
      have whole : 16 * (b.toNat / 16) + b.toNat % 16 = b.toNat := by omega
      simp only [List.flatMap_cons, hexDigits, List.cons_append, List.nil_append,
        ofHexDigits?]
      simp only [h, l, ih, Option.bind_eq_bind, Option.bind_some, whole]
      simp

/-- Reading undoes writing, so no two byte strings share a text. -/
theorem ofHex?_hex (bytes : Bytes) : ofHex? bytes.hex = some bytes := by
  rw [ofHex?, toList_hex, ofHexDigits?_flatMap]

-- ============================================================== quotation

/-- How one byte stands in a quoted byte string: the usual short escapes,
printable ASCII as itself, everything else as two hexadecimal digits. -/
def quotedByte (b : UInt8) : List Char :=
  match b.toNat with
  | 0 => ['\\', '0']
  | 9 => ['\\', 't']
  | 10 => ['\\', 'n']
  | 13 => ['\\', 'r']
  | 34 => ['\\', '"']
  | 92 => ['\\', '\\']
  | n => if 0x20 ≤ n ∧ n ≤ 0x7e then [Char.ofNat n] else '\\' :: 'x' :: hexDigits b

/-- A quoted byte string, for diagnostics. -/
def quoted (bytes : Bytes) : String :=
  "b\"" ++ String.ofList (bytes.flatMap quotedByte) ++ "\""

-- ===================================================== fixed-width numbers

/-- The `width` low bytes of a number, least significant first. -/
def littleEndian : (width : Nat) → Nat → Bytes
  | 0, _ => []
  | width + 1, n => UInt8.ofNat n :: littleEndian width (n / 256)

/-- The number a byte string spells, most significant byte first. -/
def toNatBE (bytes : Bytes) : Nat :=
  bytes.foldl (fun n b => 256 * n + b.toNat) 0

/-- The number a byte string spells, least significant byte first. -/
def toNatLE : Bytes → Nat
  | [] => 0
  | b :: rest => b.toNat + 256 * toNatLE rest

@[simp] theorem length_littleEndian (width n : Nat) :
    (littleEndian width n).length = width := by
  induction width generalizing n with
  | zero => rfl
  | succ width ih => simp [littleEndian, ih]

/-- A number that fits its width is read back from its encoding. -/
theorem toNatLE_littleEndian {width n : Nat} (h : n < Nat.pow 256 width) :
    toNatLE (littleEndian width n) = n := by
  induction width generalizing n with
  | zero => simp at h; simp [littleEndian, toNatLE, h]
  | succ width ih =>
      have wide : n < Nat.pow 256 width * 256 := h
      have rest := @ih (n / 256) (by omega)
      simp only [littleEndian, toNatLE, rest, UInt8.toNat_ofNat']
      omega

end Bytes

end LedgerCore
