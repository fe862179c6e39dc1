/-
Digests: exactly 32 bytes, compared as byte strings. They name transactions
and candidate forks.
-/
import LedgerCore.Bytes

namespace LedgerCore

/-- A 32-byte digest. -/
structure Hash where
  bytes : Bytes
  length_eq : bytes.length = 32
deriving DecidableEq

namespace Hash

/-- The digest of those bytes, if there are 32 of them. -/
def ofBytes? (bytes : Bytes) : Option Hash :=
  if h : bytes.length = 32 then some ⟨bytes, h⟩ else none

/-- The same byte 32 times. -/
def filled (b : UInt8) : Hash := ⟨List.replicate 32 b, List.length_replicate ..⟩

/-- The digest of zeros. -/
def zero : Hash := filled 0

/-- The whole digest in hexadecimal. -/
def text (h : Hash) : String := Bytes.hex h.bytes

/-- The form a digest takes inside diagnostics: its first eight bytes. -/
def diagnostic (h : Hash) : String := "Hash(" ++ Bytes.hex (h.bytes.take 8) ++ "...)"

instance : Inhabited Hash := ⟨zero⟩
instance : Ord Hash := ⟨compareOn bytes⟩

@[ext] theorem ext {a b : Hash} (h : a.bytes = b.bytes) : a = b := by
  cases a; cases b; simp_all

instance : Std.TransOrd Hash := inferInstanceAs (Std.TransCmp (compareOn bytes))

instance : Std.LawfulEqOrd Hash where
  eq_of_compare h := ext (Std.LawfulEqOrd.eq_of_compare (α := Bytes) h)

theorem ofBytes?_bytes (h : Hash) : ofBytes? h.bytes = some h := by
  simp [ofBytes?, h.length_eq]

end Hash

end LedgerCore
