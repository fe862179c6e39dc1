/-
What a transaction is checked against. Committed state is only ever read:
a `CommittedStore` looks up encodings, a `SubstateFormat` turns encodings
into objects, and a `Ledger` is the two together. What the objects are is
left open; the machine needs of an object its type tag, the resource
definition it may carry, and the data virtual substates are synthesized
from.
-/
import LedgerCore.ExecutionError
import LedgerCore.Substate.Index

namespace LedgerCore

-- ================================================================ objects

/-- What the machine needs to know of a decoded substate. -/
class StateObject (P : Type) where
  /-- The type of the object. -/
  tag : P → TypeTag
  /-- The resource definition it carries, if any. -/
  definition? : P → Option ResourceDefinition
  /-- The data of a virtual parent, whose first byte is the type of its children. -/
  childData? : P → Option Bytes

/-- What the machine needs to know of the state that procedures accumulate. -/
class ReducerState (R : Type) where
  /-- The kind procedures are looked up by. -/
  kind : R → ReducerKind

/-- The kind of a reducer state, or of there being none. -/
def reducerKind {R : Type} [ReducerState R] : Option R → ReducerKind
  | some state => ReducerState.kind state
  | none => .void

-- ======================================================== committed state

/-- A committed substate as a scan delivers it. -/
structure RawSubstate where
  id : SubstateId
  encoding : Bytes
deriving DecidableEq

/-- A read-only view of committed state. -/
structure CommittedStore where
  /-- The encoding of a committed substate that was not consumed. -/
  substate? : SubstateId → Option Bytes
  /-- The encoding of the substate that holds a resource definition. -/
  resource? : ResourceAddr → Option Bytes
  /-- The encoding of the parent of a virtual substate that was not consumed. -/
  virtualParent : SubstateId → Except ExecutionError Bytes
  /-- The committed substates an index selects, in scanning order. -/
  scan : SubstateIndex → List RawSubstate

/-- How substates are encoded. -/
structure SubstateFormat (P : Type) where
  /-- Decodes one object from the front and says how many bytes it took. -/
  decode : Bytes → Except DecodeError (P × Nat)
  /-- Whether any object type has that tag. -/
  knows : TypeTag → Bool
  /-- The virtual substate of a child type and a key. -/
  synthesize : UInt8 → Bytes → Except DecodeError P

namespace SubstateFormat

variable {P : Type}

/-- Decodes a committed substate; what follows the object is ignored. -/
def decodeStored (format : SubstateFormat P) (encoding : Bytes) : Except ExecutionError P :=
  match format.decode encoding with
  | .ok (object, _) => .ok object
  | .error cause => .error (.deserialize cause)

/-- Decodes a substate about to be created, which must be all there is. -/
def decodeWhole (format : SubstateFormat P) (encoding : Bytes) : Except ExecutionError P :=
  match format.decode encoding with
  | .ok (object, taken) =>
      if taken < encoding.length then .error (.trailingBytes (encoding.length - taken))
      else .ok object
  | .error cause => .error (.deserialize cause)

/-- What is decoded whole is decoded the same once committed. -/
theorem decodeStored_of_decodeWhole {format : SubstateFormat P} {encoding : Bytes} {object : P}
    (h : format.decodeWhole encoding = .ok object) : format.decodeStored encoding = .ok object := by
  unfold decodeWhole at h
  unfold decodeStored
  split at h
  · next decoded taken hdec =>
      split at h
      · simp at h
      · simpa [hdec] using h
  · simp at h

end SubstateFormat

/-- Committed state and the way to read it. -/
structure Ledger (P : Type) where
  store : CommittedStore
  format : SubstateFormat P

end LedgerCore
