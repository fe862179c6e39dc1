/-
A committed store held in memory: the substates by id, the substates that
hold resource definitions by address, the parents of virtual substates by
id, and the virtual substates that were consumed before. Scans run in
ascending order of ids.
-/
import LedgerCore.Store
import Std.Data.ExtTreeMap

namespace LedgerCore

/-- Committed state as four collections. -/
structure Snapshot where
  substates : Std.ExtTreeMap SubstateId Bytes
  resources : Std.ExtTreeMap ResourceAddr Bytes
  parents : Std.ExtTreeMap SubstateId Bytes
  spent : List SubstateId

namespace Snapshot

/-- A snapshot of lists of entries, of which later ones win. -/
def ofLists (substates : List (SubstateId × Bytes)) (resources : List (ResourceAddr × Bytes))
    (parents : List (SubstateId × Bytes)) (spent : List SubstateId) : Snapshot where
  substates := substates.foldl (fun entries (id, raw) => entries.insert id raw) ∅
  resources := resources.foldl (fun entries (addr, raw) => entries.insert addr raw) ∅
  parents := parents.foldl (fun entries (id, raw) => entries.insert id raw) ∅
  spent := spent

/-- The parent of a virtual substate that was not consumed before. -/
def virtualParent (snapshot : Snapshot) (id : SubstateId) : Except ExecutionError Bytes :=
  if id ∈ snapshot.spent then .error (.virtualAlreadyDown id)
  else
    match id.parent?.bind (snapshot.parents[·]?) with
    | some raw => .ok raw
    | none => .error (.virtualParentMissing id)

/-- The substates an index selects, in ascending order. -/
def scan (snapshot : Snapshot) (index : SubstateIndex) : List RawSubstate :=
  (snapshot.substates.toList.filter fun (_, raw) => index.selects raw).map
    fun (id, raw) => ⟨id, raw⟩

/-- The store a snapshot makes. -/
def toStore (snapshot : Snapshot) : CommittedStore where
  substate? id := snapshot.substates[id]?
  resource? addr := snapshot.resources[addr]?
  virtualParent := snapshot.virtualParent
  scan := snapshot.scan

/-- A scan delivers exactly the committed substates that are selected. -/
theorem mem_scan_iff {snapshot : Snapshot} {index : SubstateIndex} {entry : RawSubstate} :
    entry ∈ snapshot.scan index ↔
      snapshot.toStore.substate? entry.id = some entry.encoding
        ∧ index.selects entry.encoding = true := by
  obtain ⟨id, raw⟩ := entry
  simp [scan, toStore, List.mem_map, List.mem_filter,
    Std.ExtTreeMap.mem_toList_iff_getElem?_eq_some]

/-- A scan delivers each substate once. -/
theorem scan_ids_nodup (snapshot : Snapshot) (index : SubstateIndex) :
    ((snapshot.scan index).map RawSubstate.id).Nodup := by
  have ordered := snapshot.substates.ordered_keys_toList
  rw [scan, List.map_map, List.Nodup, List.pairwise_map]
  refine (ordered.filter _).imp fun {a b} h heq => ?_
  simp only [Function.comp_apply] at heq
  rw [heq, Std.ReflOrd.compare_self] at h
  cases h

end Snapshot

end LedgerCore
