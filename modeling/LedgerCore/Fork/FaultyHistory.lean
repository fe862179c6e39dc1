/-
A history that can be told to fail. It keeps its records like `History`,
notes which ranges of votes it is asked for, and, once an operation is
broken, lets some more calls of it pass and fails all later ones. It stands
in for a store whose medium gives way in the middle of a computation.
-/
import LedgerCore.Fork.History

namespace LedgerCore

/-- An operation of an activation store. -/
inductive StoreMethod where
  | activations
  | recordActivation
  | recordVotes
  | votes
deriving DecidableEq

namespace StoreMethod

/-- The name an operation goes by in messages. -/
def text : StoreMethod → String
  | activations => "stored_forks"
  | recordActivation => "store_fork_at_epoch"
  | recordVotes => "store_fork_voting_results"
  | votes => "fork_voting_results"

/-- Every operation. -/
def all : List StoreMethod := [activations, recordActivation, recordVotes, votes]

end StoreMethod

/-- A history whose operations can be broken. -/
structure FaultyHistory where
  history : History
  /-- The ranges of votes asked for. -/
  queries : List (Epoch × Epoch)
  /-- The broken operations, with the number of calls that still pass. -/
  broken : List (StoreMethod × Nat)

namespace FaultyHistory

/-- A history without any record and without any fault. -/
def empty : FaultyHistory := ⟨.empty, [], []⟩

/-- The number of calls that still pass, of a broken operation. -/
def passes? (store : FaultyHistory) (method : StoreMethod) : Option Nat :=
  store.broken.lookup method

/-- Breaks an operation after some more calls. -/
def damage (store : FaultyHistory) (method : StoreMethod) (after : Nat) : FaultyHistory :=
  { store with broken := (method, after) :: store.broken.filter (·.1 ≠ method) }

/-- Mends every operation. -/
def heal (store : FaultyHistory) : FaultyHistory := { store with broken := [] }

/-- Makes one call of an operation, unless it has failed by now. -/
def guarded {α : Type} (method : StoreMethod) (op : History → Except StoreError α × History)
    (store : FaultyHistory) : Except StoreError α × FaultyHistory :=
  match store.passes? method with
  | some 0 => (.error ⟨method.text ++ " failed"⟩, store)
  | some (left + 1) => call (store.damage method left)
  | none => call store
where
  /-- The call itself. -/
  call (store : FaultyHistory) : Except StoreError α × FaultyHistory :=
    let (result, history) := op store.history
    (result, { store with history := history })

instance : ActivationStore FaultyHistory where
  activations := guarded .activations ActivationStore.activations
  recordActivation epoch name :=
    guarded .recordActivation (ActivationStore.recordActivation epoch name)
  recordVotes results := guarded .recordVotes (ActivationStore.recordVotes results)
  votes start stop candidate store :=
    guarded .votes (ActivationStore.votes start stop candidate)
      { store with queries := store.queries ++ [(start, stop)] }

end FaultyHistory

end LedgerCore
