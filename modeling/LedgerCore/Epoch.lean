/-
Ledger time. Epochs are 64-bit and never wrap: every step past either end
of the range stays at that end, so "the next epoch" of the last one is the
last one itself. Lengths of time are kept apart from points in time: an
`EpochSpan` counts epochs and is what thresholds and counters are made of.
-/

namespace LedgerCore

-- ================================================================ points

/-- The ledger's coarse-grained unit of time. Validator sets and active
forks change on epoch boundaries only. -/
structure Epoch where
  toNat : Nat
  lt_limit : toNat < 0x10000000000000000
deriving DecidableEq

/-- A number of consecutive epochs. -/
structure EpochSpan where
  toNat : Nat
  lt_limit : toNat < 0x10000000000000000
deriving DecidableEq

namespace Epoch

/-- The epoch of that number, or the last epoch when there is none. -/
def clamp (n : Nat) : Epoch := ⟨min n 0xffffffffffffffff, by omega⟩

/-- The epoch of that number, if there is one. -/
def ofNat? (n : Nat) : Option Epoch :=
  if h : n < 0x10000000000000000 then some ⟨n, h⟩ else none

/-- The epoch the ledger starts in. -/
def genesis : Epoch := ⟨0, by decide⟩

/-- The last representable epoch. -/
def last : Epoch := ⟨0xffffffffffffffff, by decide⟩

/-- The following epoch; the last epoch follows itself. -/
def next (e : Epoch) : Epoch := clamp (e.toNat + 1)

/-- The epoch a span later, or the last one. -/
def advance (e : Epoch) (span : EpochSpan) : Epoch := clamp (e.toNat + span.toNat)

/-- The epoch a span earlier, or the first one. -/
def rewind (e : Epoch) (span : EpochSpan) : Epoch :=
  ⟨e.toNat - span.toNat, Nat.lt_of_le_of_lt (Nat.sub_le ..) e.lt_limit⟩

/-- Decimal text. -/
def text (e : Epoch) : String := e.toNat.repr

/-- The form an epoch takes inside diagnostics. -/
def diagnostic (e : Epoch) : String := "Epoch(" ++ e.text ++ ")"

instance : Inhabited Epoch := ⟨genesis⟩
instance : LT Epoch := ⟨fun a b => a.toNat < b.toNat⟩
instance : LE Epoch := ⟨fun a b => a.toNat ≤ b.toNat⟩
instance (a b : Epoch) : Decidable (a < b) := inferInstanceAs (Decidable (a.toNat < b.toNat))
instance (a b : Epoch) : Decidable (a ≤ b) := inferInstanceAs (Decidable (a.toNat ≤ b.toNat))
instance : Ord Epoch := ⟨compareOn toNat⟩

@[ext] theorem ext {a b : Epoch} (h : a.toNat = b.toNat) : a = b := by
  cases a; cases b; simp_all

theorem lt_def {a b : Epoch} : a < b ↔ a.toNat < b.toNat := Iff.rfl

theorem le_def {a b : Epoch} : a ≤ b ↔ a.toNat ≤ b.toNat := Iff.rfl

instance : Std.TransOrd Epoch := inferInstanceAs (Std.TransCmp (compareOn toNat))

instance : Std.LawfulEqOrd Epoch where
  eq_of_compare h := ext (Std.LawfulEqOrd.eq_of_compare (α := Nat) h)

@[simp] theorem toNat_clamp (n : Nat) : (clamp n).toNat = min n 0xffffffffffffffff := rfl

@[simp] theorem toNat_rewind (e : Epoch) (span : EpochSpan) :
    (e.rewind span).toNat = e.toNat - span.toNat := rfl

/-- Below the last epoch, the next one is one later. -/
theorem toNat_next_of_lt {e : Epoch} (h : e < last) : e.next.toNat = e.toNat + 1 := by
  simp only [lt_def, last] at h
  simp only [next, toNat_clamp]
  omega

@[simp] theorem next_last : last.next = last := by decide

end Epoch

-- ================================================================= spans

namespace EpochSpan

/-- The span of that length, or the longest one when there is none. -/
def clamp (n : Nat) : EpochSpan := ⟨min n 0xffffffffffffffff, by omega⟩

/-- The span of that length, if there is one. -/
def ofNat? (n : Nat) : Option EpochSpan :=
  if h : n < 0x10000000000000000 then some ⟨n, h⟩ else none

/-- No epoch at all. -/
def none : EpochSpan := ⟨0, by decide⟩

/-- One epoch more; the longest span stays as it is. -/
def succ (span : EpochSpan) : EpochSpan := clamp (span.toNat + 1)

/-- Decimal text. -/
def text (span : EpochSpan) : String := span.toNat.repr

instance : Inhabited EpochSpan := ⟨none⟩
instance : LT EpochSpan := ⟨fun a b => a.toNat < b.toNat⟩
instance : LE EpochSpan := ⟨fun a b => a.toNat ≤ b.toNat⟩
instance (a b : EpochSpan) : Decidable (a < b) := inferInstanceAs (Decidable (a.toNat < b.toNat))
instance (a b : EpochSpan) : Decidable (a ≤ b) := inferInstanceAs (Decidable (a.toNat ≤ b.toNat))

@[ext] theorem ext {a b : EpochSpan} (h : a.toNat = b.toNat) : a = b := by
  cases a; cases b; simp_all

theorem le_def {a b : EpochSpan} : a ≤ b ↔ a.toNat ≤ b.toNat := Iff.rfl

@[simp] theorem toNat_clamp (n : Nat) : (clamp n).toNat = min n 0xffffffffffffffff := rfl

end EpochSpan

end LedgerCore
