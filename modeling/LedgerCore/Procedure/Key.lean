/-
Procedure keys: what a rule is looked up by. A key pairs the kind of the
reducer state the group has reached with the signature of the operation
being applied, that is, the operation and the type of its substate.
-/
import LedgerCore.Substate.Index
import LedgerCore.Text.Quoted

namespace LedgerCore

-- ============================================================= operations

/-- What an instruction does to its operand. -/
inductive Op where
  | up
  | down
  | read
  | readIndex
  | downIndex
  | close
  | syscall
deriving DecidableEq

namespace Op

/-- Position in the order of operations. -/
def rank : Op → Nat
  | up => 0
  | down => 1
  | read => 2
  | readIndex => 3
  | downIndex => 4
  | close => 5
  | syscall => 6

/-- The name an operation goes by in messages. -/
def text : Op → String
  | up => "up"
  | down => "down"
  | read => "read"
  | readIndex => "read_index"
  | downIndex => "down_index"
  | close => "end"
  | syscall => "syscall"

/-- The name an operation goes by on the wire and in diagnostics. -/
def name : Op → String
  | up => "Up"
  | down => "Down"
  | read => "Read"
  | readIndex => "ReadIndex"
  | downIndex => "DownIndex"
  | close => "End"
  | syscall => "Syscall"

/-- Every operation, in order. -/
def all : List Op := [up, down, read, readIndex, downIndex, close, syscall]

theorem rank_injective {a b : Op} (h : a.rank = b.rank) : a = b := by
  revert h
  cases a <;> cases b <;> decide

end Op

/-- An operation together with the type of its substate operand, if it has one. -/
structure OpSignature where
  op : Op
  target : Option TypeTag
deriving DecidableEq

namespace OpSignature

/-- System calls have no substate operand. -/
def syscall : OpSignature := ⟨.syscall, none⟩

/-- Closing a group has no substate operand. -/
def close : OpSignature := ⟨.close, none⟩

/-- An operation on a substate of that type. -/
def substate (op : Op) (target : TypeTag) : OpSignature := ⟨op, some target⟩

/-- The operation's name, its operand type in parentheses. -/
def text (signature : OpSignature) : String :=
  match signature.target with
  | some tag => signature.op.text ++ "(" ++ tag.text ++ ")"
  | none => signature.op.text

/-- The form a signature takes inside diagnostics. -/
def diagnostic (signature : OpSignature) : String :=
  let target := match signature.target with
    | some tag => "Some(" ++ tag.diagnostic ++ ")"
    | none => "None"
  "OpSignature \x7b op: " ++ signature.op.name ++ ", target: " ++ target ++ " \x7d"

end OpSignature

-- ========================================================== reducer kinds

/-- The name of a variant of reducer state. -/
structure ReducerKind where
  name : String
deriving DecidableEq

namespace ReducerKind

/-- The kind that stands for having no reducer state. -/
def void : ReducerKind := ⟨"void"⟩

/-- Whether a kind is the void one. -/
def isVoid (kind : ReducerKind) : Bool := kind == void

/-- The form a kind takes inside diagnostics. -/
def diagnostic (kind : ReducerKind) : String :=
  "ReducerKind(" ++ Text.quoted kind.name ++ ")"

instance : Inhabited ReducerKind := ⟨void⟩

end ReducerKind

-- =================================================================== keys

/-- What a procedure is looked up by. -/
structure ProcedureKey where
  reducer : ReducerKind
  op : OpSignature
deriving DecidableEq

namespace ProcedureKey

/-- The state on the left, the operation applied to it on the right. -/
def text (key : ProcedureKey) : String := key.reducer.name ++ " <- " ++ key.op.text

/-- The form a key takes inside diagnostics. -/
def diagnostic (key : ProcedureKey) : String :=
  "ProcedureKey \x7b reducer: " ++ key.reducer.diagnostic
    ++ ", op: " ++ key.op.diagnostic ++ " \x7d"

/-- Where a key's operand type stands: none before every tag. -/
def targetRank (key : ProcedureKey) : Nat :=
  match key.op.target with
  | none => 0
  | some tag => tag.byte.toNat + 1

/-- By reducer name, then operation, then operand type. -/
def order : ProcedureKey → ProcedureKey → Ordering :=
  compareLex (compareOn fun key => key.reducer.name)
    (compareLex (compareOn fun key => key.op.op.rank) (compareOn targetRank))

instance : Ord ProcedureKey := ⟨order⟩

instance : Std.TransOrd ProcedureKey := by
  show Std.TransCmp order
  unfold order
  infer_instance

/-- Keys that are ordered neither way are the same. -/
theorem eq_of_order {a b : ProcedureKey} (h : order a b = .eq) : a = b := by
  obtain ⟨⟨an⟩, ⟨ao, at'⟩⟩ := a
  obtain ⟨⟨bn⟩, ⟨bo, bt⟩⟩ := b
  simp only [order, compareLex_eq_eq, compareOn] at h
  obtain ⟨hname, hop, htarget⟩ := h
  have hname := Std.LawfulEqOrd.eq_of_compare hname
  have hop := Op.rank_injective (Std.LawfulEqOrd.eq_of_compare hop)
  have htarget := Std.LawfulEqOrd.eq_of_compare htarget
  subst hname hop
  cases at' with
  | none => cases bt <;> simp [targetRank] at htarget ⊢
  | some s =>
      cases bt with
      | none => simp [targetRank] at htarget
      | some t =>
          simp only [targetRank, Nat.add_right_cancel_iff] at htarget
          rw [TypeTag.ext (UInt8.toNat_inj.mp htarget)]

instance : Std.LawfulEqOrd ProcedureKey where
  eq_of_compare := eq_of_order

end ProcedureKey

end LedgerCore
