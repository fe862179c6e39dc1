/-
Quantities of a fungible resource, in its smallest subunit: 128-bit
numbers whose arithmetic is checked. A sum, difference or product that
does not exist is `none`, and what that means is up to the caller.
-/

namespace LedgerCore

/-- A quantity of a fungible resource. -/
structure Amount where
  toNat : Nat
  lt_limit : toNat < 0x100000000000000000000000000000000
deriving DecidableEq

namespace Amount

/-- The amount of that many subunits, if it is representable. -/
def ofNat? (n : Nat) : Option Amount :=
  if h : n < 0x100000000000000000000000000000000 then some ⟨n, h⟩ else none

/-- The amount of that many subunits, or the largest one. -/
def clamp (n : Nat) : Amount := ⟨min n 0xffffffffffffffffffffffffffffffff, by omega⟩

/-- Nothing. -/
def zero : Amount := ⟨0, by decide⟩

/-- Whether nothing is left. -/
def isZero (a : Amount) : Bool := a.toNat == 0

/-- The exact sum. -/
def add? (a b : Amount) : Option Amount := ofNat? (a.toNat + b.toNat)

/-- The sum, or the largest amount where it does not fit. -/
def addUpTo (a b : Amount) : Amount := clamp (a.toNat + b.toNat)

/-- The exact difference. -/
def sub? (a b : Amount) : Option Amount :=
  if b.toNat ≤ a.toNat then ofNat? (a.toNat - b.toNat) else none

/-- The exact product with a number. -/
def mul? (a : Amount) (factor : Nat) : Option Amount := ofNat? (a.toNat * factor)

/-- What is left of `a` after taking up to `b`. -/
def monus (a b : Amount) : Amount :=
  ⟨a.toNat - b.toNat, Nat.lt_of_le_of_lt (Nat.sub_le ..) a.lt_limit⟩

/-- Decimal text. -/
def text (a : Amount) : String := a.toNat.repr

instance : Inhabited Amount := ⟨zero⟩
instance : LT Amount := ⟨fun a b => a.toNat < b.toNat⟩
instance : LE Amount := ⟨fun a b => a.toNat ≤ b.toNat⟩
instance (a b : Amount) : Decidable (a < b) := inferInstanceAs (Decidable (a.toNat < b.toNat))
instance (a b : Amount) : Decidable (a ≤ b) := inferInstanceAs (Decidable (a.toNat ≤ b.toNat))
instance : Ord Amount := ⟨compareOn toNat⟩

@[ext] theorem ext {a b : Amount} (h : a.toNat = b.toNat) : a = b := by
  cases a; cases b; simp_all

theorem lt_def {a b : Amount} : a < b ↔ a.toNat < b.toNat := Iff.rfl

theorem le_def {a b : Amount} : a ≤ b ↔ a.toNat ≤ b.toNat := Iff.rfl

@[simp] theorem toNat_zero : zero.toNat = 0 := rfl

@[simp] theorem toNat_monus (a b : Amount) : (a.monus b).toNat = a.toNat - b.toNat := rfl

theorem isZero_iff {a : Amount} : a.isZero = true ↔ a = zero := by
  simp [isZero, Amount.ext_iff]

/-- A number is an amount if it fits, and then that amount. -/
theorem ofNat?_eq_some_iff {n : Nat} {a : Amount} : ofNat? n = some a ↔ a.toNat = n := by
  unfold ofNat?
  split
  · constructor
    · rintro ⟨⟩; rfl
    · intro h; subst h; rfl
  · next h =>
      constructor
      · intro h'; cases h'
      · intro h'; exact absurd (h' ▸ a.lt_limit) h

/-- A sum exists exactly when it is the exact one. -/
theorem add?_eq_some_iff {a b c : Amount} :
    a.add? b = some c ↔ c.toNat = a.toNat + b.toNat := ofNat?_eq_some_iff

theorem add?_eq_none_iff {a b : Amount} :
    a.add? b = none ↔ 0x100000000000000000000000000000000 ≤ a.toNat + b.toNat := by
  simp [add?, ofNat?]

/-- A difference exists exactly when it is the exact one. -/
theorem sub?_eq_some_iff {a b c : Amount} :
    a.sub? b = some c ↔ c.toNat + b.toNat = a.toNat := by
  unfold sub?
  split
  · rw [ofNat?_eq_some_iff]; omega
  · simp; omega

/-- A difference fails exactly if it would be negative. -/
theorem sub?_eq_none_iff {a b : Amount} : a.sub? b = none ↔ a < b := by
  have := a.lt_limit
  unfold sub? ofNat?
  rw [lt_def]
  split
  · simp only [dite_eq_right_iff, reduceCtorEq, imp_false]
    omega
  · simp only [true_iff]
    omega

theorem mul?_eq_some_iff {a c : Amount} {factor : Nat} :
    a.mul? factor = some c ↔ c.toNat = a.toNat * factor := ofNat?_eq_some_iff

end Amount

end LedgerCore
