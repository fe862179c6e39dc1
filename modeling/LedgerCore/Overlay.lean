/-
The overlay: committed state as the running transaction sees it. It records
what the transaction has created, by boot-up number, what committed and
virtual substates it has consumed, and which resource definitions it has
brought into being.

The created substates are a list of slots, one for each creation in order;
a consumed one leaves its slot empty, so boot-up numbers never shift.
-/
import LedgerCore.Instruction
import LedgerCore.Store

namespace LedgerCore

-- ================================================================== types

/-- A substate created by the running transaction. -/
structure CreatedSubstate (P : Type) where
  id : SubstateId
  object : P
  encoding : Bytes
deriving DecidableEq

/-- What the running transaction has made of committed state. -/
structure Overlay (P : Type) where
  /-- One slot for each creation, empty once that substate is consumed. -/
  slots : List (Option (CreatedSubstate P))
  /-- Resource definitions created, the latest first. -/
  definitions : List ResourceDefinition
  /-- Committed and virtual substates consumed. -/
  consumed : List SubstateId
deriving DecidableEq

/-- A substate an instruction refers to. -/
structure Found (P : Type) where
  id : SubstateId
  object : P
  /-- Absent for virtual substates, which exist as a parent and a key only. -/
  encoding : Option Bytes
deriving DecidableEq

/-- Where a scanned substate comes from. -/
inductive ScanSource where
  | created (index : Nat)
  | committed (id : SubstateId)
deriving DecidableEq

/-- One substate an index scan offers. -/
structure ScanEntry (P : Type) where
  source : ScanSource
  id : SubstateId
  object : P
  encoding : Bytes
deriving DecidableEq

namespace Overlay

variable {P : Type}

/-- The overlay of a transaction that has done nothing yet. -/
def empty : Overlay P := ⟨[], [], []⟩

-- ============================================================== creations

/-- The live substate with that boot-up number. -/
def created? (overlay : Overlay P) (index : Nat) : Option (CreatedSubstate P) :=
  overlay.slots[index]?.join

/-- Creates a substate under the next boot-up number. -/
def create [StateObject P] (overlay : Overlay P) (id : SubstateId) (object : P)
    (encoding : Bytes) : Overlay P :=
  { overlay with
    slots := overlay.slots ++ [some ⟨id, object, encoding⟩]
    definitions := (StateObject.definition? object).toList ++ overlay.definitions }

/-- Empties the slot of a created substate. -/
def dropCreated (overlay : Overlay P) (index : Nat) : Overlay P :=
  { overlay with slots := overlay.slots.set index none }

/-- Records that a committed or virtual substate is consumed. -/
def markConsumed (overlay : Overlay P) (id : SubstateId) : Overlay P :=
  { overlay with consumed := id :: overlay.consumed }

-- ================================================================ looking

/-- A committed substate that was not consumed here. -/
def lookCommitted (ledger : Ledger P) (overlay : Overlay P) (id : SubstateId) :
    Except ExecutionError (Found P) :=
  if id ∈ overlay.consumed then .error (.substateAlreadyDown id)
  else
    match ledger.store.substate? id with
    | none => .error (.substateNotFound id)
    | some encoding =>
        match ledger.format.decodeStored encoding with
        | .ok object => .ok ⟨id, object, some encoding⟩
        | .error cause => .error cause

/-- A child of a parent object. -/
def synthesize [StateObject P] (ledger : Ledger P) (id : SubstateId) (parent : P)
    (key : Bytes) : Except ExecutionError (Found P) :=
  match (StateObject.childData? parent).bind List.head? with
  | none => .error (.virtualParentMissing id)
  | some childType =>
      match ledger.format.synthesize childType key with
      | .ok object => .ok ⟨id, object, none⟩
      | .error cause => .error (.deserialize cause)

/-- A child of a committed parent, not consumed here or before. -/
def lookVirtual [StateObject P] (ledger : Ledger P) (overlay : Overlay P) (id : SubstateId) :
    Except ExecutionError (Found P) :=
  if id ∈ overlay.consumed then .error (.virtualAlreadyDown id)
  else
    match id.key? with
    | none => .error (.virtualParentMissing id)
    | some key => do
        let encoding ← ledger.store.virtualParent id
        let parent ← ledger.format.decodeStored encoding
        synthesize ledger id parent key

/-- A live substate created here. -/
def lookCreated (overlay : Overlay P) (index : UInt32) : Except ExecutionError (Found P) :=
  match overlay.created? index.toNat with
  | none => .error (.createdNotFound index)
  | some substate => .ok ⟨substate.id, substate.object, some substate.encoding⟩

/-- A child of a live parent created here. -/
def lookCreatedVirtual [StateObject P] (ledger : Ledger P) (overlay : Overlay P)
    (id : SubstateId) : Except ExecutionError (Found P) :=
  if id ∈ overlay.consumed then .error (.virtualAlreadyDown id)
  else
    match id with
    | .virtual (.created index) key =>
        match overlay.created? index.toNat with
        | none => .error (.virtualParentMissing id)
        | some parent => synthesize ledger id parent.object key
    | _ => .error (.virtualParentMissing id)

/-- The substate a reference stands for. -/
def look [StateObject P] (ledger : Ledger P) (overlay : Overlay P) :
    SubstateRef → Except ExecutionError (Found P)
  | .committed id => lookCommitted ledger overlay id
  | .virtual id => lookVirtual ledger overlay id
  | .created index => lookCreated overlay index
  | .createdVirtual id => lookCreatedVirtual ledger overlay id

-- ============================================================== consuming

/-- The overlay once the substate of a reference is consumed. -/
def without (overlay : Overlay P) : SubstateRef → Overlay P
  | .committed id | .virtual id | .createdVirtual id => overlay.markConsumed id
  | .created index => overlay.dropCreated index.toNat

/-- Consumes the substate a reference stands for. -/
def take [StateObject P] (ledger : Ledger P) (overlay : Overlay P) (target : SubstateRef) :
    Except ExecutionError (Found P × Overlay P) := do
  let found ← overlay.look ledger target
  return (found, overlay.without target)

-- ================================================================== scans

/-- The live created substates an index selects, in boot-up order. -/
def createdEntries (overlay : Overlay P) (index : SubstateIndex) : List (ScanEntry P) :=
  overlay.slots.zipIdx.filterMap fun (slot, number) =>
    slot.bind fun substate =>
      if index.selects substate.encoding then
        some ⟨.created number, substate.id, substate.object, substate.encoding⟩
      else none

/-- A committed substate as an offer, or the reason it cannot be decoded. -/
def committedEntry (ledger : Ledger P) (raw : RawSubstate) :
    Except ExecutionError (ScanEntry P) :=
  match ledger.format.decodeStored raw.encoding with
  | .ok object => .ok ⟨.committed raw.id, raw.id, object, raw.encoding⟩
  | .error cause => .error cause

/-- What a scan offers: created substates first, then the committed ones
that were not consumed. -/
def scan (ledger : Ledger P) (overlay : Overlay P) (index : SubstateIndex) :
    List (Except ExecutionError (ScanEntry P)) :=
  (overlay.createdEntries index).map .ok
    ++ ((ledger.store.scan index).filter fun raw => raw.id ∉ overlay.consumed).map
        (committedEntry ledger)

/-- Consumes a scanned substate. -/
def consume (overlay : Overlay P) : ScanSource → Overlay P
  | .created index => overlay.dropCreated index
  | .committed id => overlay.markConsumed id

/-- Consumes scanned substates in order. -/
def consumeAll (overlay : Overlay P) (entries : List (ScanEntry P)) : Overlay P :=
  entries.foldl (fun overlay entry => overlay.consume entry.source) overlay

-- ============================================================== resources

/-- The definition of a resource: the latest one created here, or else the
committed one. -/
def resource [StateObject P] (ledger : Ledger P) (overlay : Overlay P) (addr : ResourceAddr) :
    Except ExecutionError ResourceDefinition :=
  match overlay.definitions.find? fun definition => definition.addr == addr with
  | some definition => .ok definition
  | none =>
      match ledger.store.resource? addr with
      | none => .error (.notAResource addr)
      | some encoding => do
          let object ← ledger.format.decodeStored encoding
          match StateObject.definition? object with
          | some definition => .ok definition
          | none => .error (.notAResource addr)

-- =================================================================== laws

/-- The next boot-up number is the number of creations so far. -/
theorem created?_create_self [StateObject P] (overlay : Overlay P) (id : SubstateId) (object : P)
    (encoding : Bytes) :
    (overlay.create id object encoding).created? overlay.slots.length
      = some ⟨id, object, encoding⟩ := by
  simp [created?, create]

/-- A creation leaves every earlier boot-up number as it was. -/
theorem created?_create_of_lt [StateObject P] {overlay : Overlay P} {id : SubstateId} {object : P}
    {encoding : Bytes} {index : Nat} (h : index < overlay.slots.length) :
    (overlay.create id object encoding).created? index = overlay.created? index := by
  simp [created?, create, List.getElem?_append_left h]

/-- Consuming a created substate ends that one and no other. -/
theorem created?_dropCreated (overlay : Overlay P) (gone index : Nat) :
    (overlay.dropCreated gone).created? index
      = if gone = index then none else overlay.created? index := by
  simp only [created?, dropCreated, List.getElem?_set]
  split
  · split <;> simp
  · rfl

@[simp] theorem consumed_dropCreated (overlay : Overlay P) (index : Nat) :
    (overlay.dropCreated index).consumed = overlay.consumed := rfl

@[simp] theorem mem_consumed_markConsumed {overlay : Overlay P} {id other : SubstateId} :
    other ∈ (overlay.markConsumed id).consumed ↔ other = id ∨ other ∈ overlay.consumed := by
  simp [markConsumed]

/-- What the transaction consumed is not found again. -/
theorem look_committed_of_mem [StateObject P] {ledger : Ledger P} {overlay : Overlay P}
    {id : SubstateId} (h : id ∈ overlay.consumed) :
    overlay.look ledger (.committed id) = .error (.substateAlreadyDown id) := by
  simp [look, lookCommitted, h]

/-- A child that was consumed is not found again. -/
theorem look_virtual_of_mem [StateObject P] {ledger : Ledger P} {overlay : Overlay P}
    {id : SubstateId} (h : id ∈ overlay.consumed) :
    overlay.look ledger (.virtual id) = .error (.virtualAlreadyDown id) := by
  simp [look, lookVirtual, h]

theorem look_createdVirtual_of_mem [StateObject P] {ledger : Ledger P} {overlay : Overlay P}
    {id : SubstateId} (h : id ∈ overlay.consumed) :
    overlay.look ledger (.createdVirtual id) = .error (.virtualAlreadyDown id) := by
  simp [look, lookCreatedVirtual, h]

end Overlay

end LedgerCore
