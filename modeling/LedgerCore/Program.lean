/-
Effectful programs as data. A program either is done or performs one
operation and goes on with its answer; which operations there are is a
parameter. Rules, authorizers and meters are such programs, so each can do
what its operations offer and nothing else, and what a program does to a
state is settled by one handler for its operations.
-/
namespace LedgerCore

/-- The operations a program may perform, and what each one answers. -/
structure Effects where
  Op : Type
  Answer : Op → Type

/-- A computation that performs operations of `E` and ends in an `α`. -/
inductive Program (E : Effects) (α : Type) where
  | done (result : α)
  | perform (op : E.Op) (next : E.Answer op → Program E α)

namespace Program

variable {E : Effects} {α β σ : Type}

/-- The program that performs one operation and ends in its answer. -/
def ask (op : E.Op) : Program E (E.Answer op) := .perform op .done

/-- One program after another. -/
def bind : Program E α → (α → Program E β) → Program E β
  | done a, next => next a
  | perform op rest, next => perform op fun answer => (rest answer).bind next

instance : Monad (Program E) where
  pure := done
  bind := bind

/-- Runs a program on a state, each operation as the handler has it. -/
def run (handle : (op : E.Op) → σ → E.Answer op × σ) : Program E α → σ → α × σ
  | done a, s => (a, s)
  | perform op next, s => (next (handle op s).1).run handle (handle op s).2

-- =================================================================== laws

variable (handle : (op : E.Op) → σ → E.Answer op × σ)

@[simp] theorem run_perform (op : E.Op) (next : E.Answer op → Program E α) (s : σ) :
    (perform op next).run handle s
      = (next (handle op s).1).run handle (handle op s).2 := rfl

/-- Running two programs in a row is running the first, then the second from
the state it left. -/
theorem run_bind (p : Program E α) (next : α → Program E β) (s : σ) :
    (p.bind next).run handle s = (next (p.run handle s).1).run handle (p.run handle s).2 := by
  induction p generalizing s with
  | done a => rfl
  | perform op rest ih => exact ih _ _

end Program

end LedgerCore
