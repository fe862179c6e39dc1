/-
Names of substates. A substate is named by where it comes from: a
committed transaction stored it, the running transaction created it, or it
is synthesized from a parent and a key. The parent of a virtual substate is
itself named, so names nest.

Names are ordered by kind first (stored, created, virtual), then by
content, a parent before its key. The order is a lawful linear one, which
is what keyed collections of substates rest on.
-/
import LedgerCore.Bytes

namespace LedgerCore

/-- The name of an addressable unit of ledger state. -/
inductive SubstateId where
  /-- Persisted by a committed transaction, or the id given to a new substate. -/
  | stored (address : Bytes)
  /-- Created earlier in the same transaction, by its boot-up number. -/
  | created (index : UInt32)
  /-- Synthesized from a parent substate and a key. -/
  | virtual (parent : SubstateId) (key : Bytes)
deriving DecidableEq

namespace SubstateId

instance : Inhabited SubstateId := ⟨stored []⟩

-- ============================================================= components

/-- The boot-up number, of a substate created in the same transaction. -/
def createdIndex? : SubstateId → Option UInt32
  | created index => some index
  | _ => none

/-- The parent of a virtual substate. -/
def parent? : SubstateId → Option SubstateId
  | virtual parent _ => some parent
  | _ => none

/-- The key of a virtual substate. -/
def key? : SubstateId → Option Bytes
  | virtual _ key => some key
  | _ => none

/-- Whether a substate is synthesized. -/
def isVirtual : SubstateId → Bool
  | virtual .. => true
  | _ => false

/-- How many parents stand between a substate and one that is not virtual. -/
def depth : SubstateId → Nat
  | virtual parent _ => parent.depth + 1
  | _ => 0

-- =================================================================== text

/-- Hexadecimal for stored ids, a number sign for created ones, and a path
from the outermost parent for virtual ones. -/
def text : SubstateId → String
  | stored address => Bytes.hex address
  | created index => "local#" ++ index.toNat.repr
  | virtual parent key => parent.text ++ "/" ++ Bytes.hex key

-- ================================================================== order

/-- By kind, then by content; a parent weighs more than its key. -/
def order : SubstateId → SubstateId → Ordering
  | stored a, stored b => compare a b
  | stored _, _ => .lt
  | _, stored _ => .gt
  | created a, created b => compare a b
  | created _, virtual .. => .lt
  | virtual .., created _ => .gt
  | virtual parentA keyA, virtual parentB keyB =>
      (order parentA parentB).then (compare keyA keyB)

instance : Ord SubstateId := ⟨order⟩

/-- The order can be read from either side. -/
theorem order_swap (a b : SubstateId) : order a b = (order b a).swap := by
  induction a generalizing b with
  | stored x => cases b <;> simp [order, Std.OrientedCmp.eq_swap (a := x)]
  | created x => cases b <;> simp [order, Std.OrientedCmp.eq_swap (a := x)]
  | virtual p k ih =>
      cases b with
      | stored => simp [order]
      | created => simp [order]
      | virtual q l =>
          have hk : compare k l = (compare l k).swap := Std.OrientedOrd.eq_swap
          simp only [order, Ordering.swap_then, ih q, hk]

/-- Ids that are ordered neither way are the same. -/
theorem eq_of_order {a b : SubstateId} (h : order a b = .eq) : a = b := by
  induction a generalizing b with
  | stored x =>
      cases b with
      | stored y => exact congrArg stored (Std.LawfulEqOrd.eq_of_compare h)
      | created y => simp [order] at h
      | virtual q l => simp [order] at h
  | created x =>
      cases b with
      | stored y => simp [order] at h
      | created y => exact congrArg created (Std.LawfulEqOrd.eq_of_compare h)
      | virtual q l => simp [order] at h
  | virtual p k ih =>
      cases b with
      | stored y => simp [order] at h
      | created y => simp [order] at h
      | virtual q l =>
          simp only [order, Ordering.then_eq_eq] at h
          rw [ih h.1, Std.LawfulEqOrd.eq_of_compare h.2]

/-- An id is not before itself. -/
theorem order_self (a : SubstateId) : order a a = .eq := by
  induction a with
  | stored x => simp [order]
  | created x => simp [order]
  | virtual p k ih => simp [order, ih]

/-- The order is transitive, by induction on the ids as they nest. -/
theorem order_isLE_trans {a b c : SubstateId} (hab : (order a b).isLE) (hbc : (order b c).isLE) :
    (order a c).isLE := by
  induction a generalizing b c with
  | stored x =>
      cases b <;> cases c <;> simp [order] at hab hbc ⊢
      exact Std.TransOrd.isLE_trans hab hbc
  | created x =>
      cases b <;> cases c <;> simp [order] at hab hbc ⊢
      exact Std.TransOrd.isLE_trans hab hbc
  | virtual p k ih =>
      cases b with
      | stored => simp [order] at hab
      | created => simp [order] at hab
      | virtual q l =>
          cases c with
          | stored => simp [order] at hbc
          | created => simp [order] at hbc
          | virtual r m =>
              simp only [order, Ordering.isLE_then_iff_or] at hab hbc ⊢
              -- parents decide first, then keys
              rcases hab with hpq | ⟨hpq, hkl⟩
              · left
                rcases hbc with hqr | ⟨hqr, -⟩
                · have hle := ih (b := q) (c := r) (by simp [hpq]) (by simp [hqr])
                  cases hpr : order p r with
                  | lt => rfl
                  | gt => simp [hpr] at hle
                  | eq =>
                      rw [eq_of_order hpr, order_swap, hqr] at hpq
                      cases hpq
                · exact eq_of_order hqr ▸ hpq
              · rcases hbc with hqr | ⟨hqr, hlm⟩
                · exact .inl (eq_of_order hpq ▸ hqr)
                · refine .inr ⟨?_, Std.TransOrd.isLE_trans hkl hlm⟩
                  rw [eq_of_order hpq, eq_of_order hqr, order_self]

instance : Std.TransOrd SubstateId where
  eq_swap := order_swap _ _
  isLE_trans := order_isLE_trans

instance : Std.LawfulEqOrd SubstateId where
  eq_of_compare := eq_of_order

end SubstateId

end LedgerCore
