/-
Accounts of what a run removes. Each removal recorded is of a source, and no
source is consumed twice (`Consumption.lean`); `Accounts` carries the
sources consumed so far beside the removals recorded and says which id each
was recorded under.

The ids of the removals are then distinct (`Accounts.removals_ids_nodup`) as
long as creations have ids of their own, because two sources could share an
id only by way of a creation's.
-/
import LedgerCore.Proofs.Machine.Consumption
import LedgerCore.Proofs.Machine.Record

namespace LedgerCore

open StateUpdate hiding id

variable {P R : Type}

-- ======================================================== sources and their ids

/-- The id that consuming a source is recorded under. -/
def ScanSource.recordedId? (updates : List (StateUpdate P)) : ScanSource → Option SubstateId
  | .committed id => some id
  | .created number => (births updates)[number]?.map StateUpdate.id

/-- More records do not change the id of a source that has one. -/
theorem ScanSource.recordedId?_append {updates : List (StateUpdate P)} {source : ScanSource}
    {id : SubstateId} (h : source.recordedId? updates = some id)
    (more : List (StateUpdate P)) : source.recordedId? (updates ++ more) = some id := by
  cases source with
  | committed other => exact h
  | created number =>
      obtain ⟨birth, hbirth, rfl⟩ := Option.map_eq_some_iff.mp h
      rw [recordedId?, births_append,
        List.getElem?_append_left (List.getElem?_eq_some_iff.mp hbirth).1, hbirth]
      rfl

/-- More records do not change the ids of several sources either. -/
theorem ScanSource.recordedIds_append {updates : List (StateUpdate P)}
    {sources : List ScanSource} {ids : List SubstateId}
    (h : sources.map (·.recordedId? updates) = ids.map some) (more : List (StateUpdate P)) :
    sources.map (·.recordedId? (updates ++ more)) = ids.map some := by
  rw [← h]
  refine List.map_congr_left fun source hsource => ?_
  have hmem : source.recordedId? updates ∈ ids.map some := h ▸ List.mem_map_of_mem hsource
  obtain ⟨id, -, hid⟩ := List.mem_map.mp hmem
  rw [← hid]
  exact recordedId?_append hid.symm more

namespace Overlay.Mirrors

variable [StateObject P] {ledger : Ledger P} {overlay : Overlay P}
  {updates : List (StateUpdate P)}

/-- What a reference finds is recorded under the id that it is found with. -/
theorem recordedId?_of_finds (mirrors : overlay.Mirrors updates) {target : SubstateRef}
    {found : Found P} (h : overlay.Finds ledger target found) :
    target.source.recordedId? updates = some found.id := by
  cases h with
  | created live =>
      obtain ⟨born, hborn⟩ := mirrors.recorded live
      rw [SubstateRef.source, ScanSource.recordedId?, hborn]
      rfl
  | _ => rfl

/-- What a scan offers is recorded under the id that it is offered with. -/
theorem recordedId?_of_mem_scan (mirrors : overlay.Mirrors updates) {index : SubstateIndex}
    {entry : ScanEntry P} (h : .ok entry ∈ overlay.scan ledger index) :
    entry.source.recordedId? updates = some entry.id := by
  rcases Overlay.ok_mem_scan_iff.mp h with hcreated | ⟨raw, -, -, -, heq⟩
  · obtain ⟨number, substate, hsome, -, rfl⟩ := Overlay.mem_createdEntries_iff.mp hcreated
    obtain ⟨born, hborn⟩ := mirrors.recorded hsome
    rw [ScanSource.recordedId?, hborn]
    rfl
  · rw [heq]
    rfl

end Overlay.Mirrors

/-- An id that consumption by id can be about: a virtual one or one the
store knows. -/
def CommittedStore.Admits (store : CommittedStore) (id : SubstateId) : Prop :=
  id.isVirtual = true ∨ (store.substate? id).isSome = true

/-- The sources consumed so far, each once, and the removals recorded of
them, in the same order. -/
structure Accounts (store : CommittedStore) (overlay : Overlay P)
    (updates : List (StateUpdate P)) (sources : List ScanSource) : Prop where
  nodup : sources.Nodup
  gone : ∀ source ∈ sources, overlay.Gone source
  admitted : ∀ id, .committed id ∈ sources → store.Admits id
  ids : sources.map (·.recordedId? updates) = ((removals updates).map StateUpdate.id).map some

namespace Machine

variable [StateObject P] [ReducerState R] {machine : Machine P R} {ledger : Ledger P}

-- ================================================================= over a step

section Step

variable {position : Nat} {instruction : Instruction} {run : Run P R}
  {updates : List (StateUpdate P)} {overlay : Overlay P}

/-- Nothing is consumed that is gone already. -/
theorem not_gone_of_mem_consumes
    (h : machine.Applies ledger position run instruction updates overlay) {source : ScanSource}
    (consumed : source ∈ machine.consumes ledger instruction run) :
    ¬ run.overlay.Gone source := by
  intro gone
  cases h with
  | down look =>
      -- a look-up would have failed
      rw [List.mem_singleton.mp consumed] at gone
      obtain ⟨cause, hlook, -⟩ := Overlay.look_of_gone ledger gone
      rw [hlook] at look
      cases look
  | downIndex known =>
      obtain ⟨entry, hentry, rfl⟩ := List.mem_map.mp consumed
      -- and a scan would not have offered it
      exact Overlay.not_mem_scanSources_of_gone gone
        (Overlay.source_mem_scanSources (offered_of_mem_pulls hentry))
  | _ => cases consumed

/-- What is consumed by its id is virtual, or committed state knows it. -/
theorem admits_of_mem_consumes
    (agrees : ∀ index, ∀ raw ∈ ledger.store.scan index,
      ledger.store.substate? raw.id = some raw.encoding)
    (h : machine.Applies ledger position run instruction updates overlay) {id : SubstateId}
    (consumed : .committed id ∈ machine.consumes ledger instruction run) :
    ledger.store.Admits id := by
  cases h with
  | down look =>
      cases Overlay.finds_of_look look with
      | committed live stored decoded =>
          cases List.mem_singleton.mp consumed
          exact .inr (by rw [stored]; rfl)
      | virtual live stored decoded bred =>
          cases List.mem_singleton.mp consumed
          exact .inl rfl
      -- consumed by its number, not by an id
      | created live => cases List.mem_singleton.mp consumed
      | createdVirtual live here bred =>
          cases List.mem_singleton.mp consumed
          exact .inl rfl
  | downIndex known =>
      obtain ⟨entry, hentry, hsource⟩ := List.mem_map.mp consumed
      rcases Overlay.ok_mem_scan_iff.mp (offered_of_mem_pulls hentry) with
        hcreated | ⟨raw, hraw, -, -, heq⟩
      · obtain ⟨number, substate, -, -, rfl⟩ := Overlay.mem_createdEntries_iff.mp hcreated
        -- likewise
        cases hsource
      · rw [heq] at hsource
        cases hsource
        exact .inr (by rw [agrees _ raw hraw]; rfl)
  | _ => cases consumed

/-- The removals a step records are those of the sources it consumes, in
order. -/
theorem recordedIds_of_applies (mirrors : run.overlay.Mirrors run.reduction.updates)
    (h : machine.Applies ledger position run instruction updates overlay) :
    (machine.consumes ledger instruction run).map (·.recordedId? run.reduction.updates)
      = ((removals updates).map StateUpdate.id).map some := by
  cases h with
  | down look =>
      exact congrArg ([·]) (mirrors.recordedId?_of_finds (Overlay.finds_of_look look))
  | downIndex known =>
      rw [removals_pulls, consumes, List.map_map, List.map_map, List.map_map]
      refine List.map_congr_left fun entry hentry => ?_
      exact mirrors.recordedId?_of_mem_scan (offered_of_mem_pulls hentry)
  | _ => rfl

variable (ledger) in
/-- A step adds the sources it consumes to the accounts. -/
theorem accounts_of_step {after : Run P R} {sources : List ScanSource}
    (once : ∀ index, ((ledger.store.scan index).map RawSubstate.id).Nodup)
    (agrees : ∀ index, ∀ raw ∈ ledger.store.scan index,
      ledger.store.substate? raw.id = some raw.encoding)
    (mirrors : run.overlay.Mirrors run.reduction.updates)
    (h : machine.step ledger position instruction run = (.ok (), after))
    (accounts : Accounts ledger.store run.overlay run.reduction.updates sources) :
    Accounts ledger.store after.overlay after.reduction.updates
      (sources ++ machine.consumes ledger instruction run) := by
  obtain ⟨updates, overlay, applies, -, hupdates⟩ := applies_of_step h
  refine ⟨?_, ?_, ?_, ?_⟩
  · refine List.nodup_append.mpr ⟨accounts.nodup, consumes_nodup once _ _, ?_⟩
    intro source hsource other hother heq
    subst heq
    exact not_gone_of_mem_consumes applies hother (accounts.gone source hsource)
  · intro source hsource
    rcases List.mem_append.mp hsource with hold | hnew
    · exact gone_of_step h (accounts.gone source hold)
    · exact gone_of_mem_consumes h hnew
  · intro id hid
    rcases List.mem_append.mp hid with hold | hnew
    · exact accounts.admitted id hold
    · exact admits_of_mem_consumes agrees applies hnew
  · rw [hupdates, removals_append, List.map_append, List.map_append, List.map_append,
      ScanSource.recordedIds_append accounts.ids,
      ScanSource.recordedIds_append (recordedIds_of_applies mirrors applies)]

end Step

/-- Along every run there are accounts of all that was removed. -/
theorem Reached.accounts {store : CommittedStore} {ctx : Context}
    {instructions : List Instruction} {position : Nat} {run : Run P R}
    (once : ∀ index, ((store.scan index).map RawSubstate.id).Nodup)
    (agrees : ∀ index, ∀ raw ∈ store.scan index, store.substate? raw.id = some raw.encoding)
    (h : machine.Reached store ctx instructions position run) :
    ∃ sources, Accounts store run.overlay run.reduction.updates sources := by
  induction h with
  | start hook => exact ⟨[], List.nodup_nil, nofun, nofun, rfl⟩
  | step reached here applied ih =>
      obtain ⟨sources, accounts⟩ := ih
      exact ⟨_, accounts_of_step ⟨store, machine.format⟩ once agrees reached.mirrors applied
        accounts⟩

end Machine

namespace Accounts

variable {store : CommittedStore} {overlay : Overlay P} {updates : List (StateUpdate P)}
  {sources : List ScanSource}

/-- Each source consumed has an id on record. -/
theorem exists_recordedId (accounts : Accounts store overlay updates sources)
    {source : ScanSource} (h : source ∈ sources) :
    ∃ id, source.recordedId? updates = some id := by
  have hmem : source.recordedId? updates ∈ ((removals updates).map StateUpdate.id).map some :=
    accounts.ids ▸ List.mem_map_of_mem h
  obtain ⟨id, -, hid⟩ := List.mem_map.mp hmem
  exact ⟨id, hid.symm⟩

/-- With ids of their own for the creations, a created source and one that is
consumed by id do not share an id. -/
theorem recordedId?_created_ne (accounts : Accounts store overlay updates sources)
    (own : ∀ birth ∈ births updates, ¬ store.Admits birth.id) {number : Nat} {id : SubstateId}
    (h : .committed id ∈ sources) :
    (ScanSource.created number).recordedId? updates ≠ some id := by
  intro hid
  obtain ⟨birth, hbirth, rfl⟩ := Option.map_eq_some_iff.mp hid
  exact own birth (List.mem_of_getElem? hbirth) (accounts.admitted _ h)

/-- With ids of their own for the creations, two sources never share an
id. -/
theorem recordedId?_inj (accounts : Accounts store overlay updates sources)
    (distinct : ((births updates).map StateUpdate.id).Nodup)
    (own : ∀ birth ∈ births updates, ¬ store.Admits birth.id) {source other : ScanSource}
    (h : source ∈ sources) (h' : other ∈ sources)
    (same : source.recordedId? updates = other.recordedId? updates) : source = other := by
  cases source with
  | committed id =>
      cases other with
      | committed id' =>
          cases same
          rfl
      | created number => exact absurd same.symm (accounts.recordedId?_created_ne own h)
  | created number =>
      cases other with
      | committed id => exact absurd same (accounts.recordedId?_created_ne own h')
      | created number' =>
          obtain ⟨id, hid⟩ := accounts.exists_recordedId h
          rw [hid] at same
          simp only [ScanSource.recordedId?, ← List.getElem?_map] at hid same
          have hlt := (List.getElem?_eq_some_iff.mp hid).1
          rw [(List.getElem?_inj hlt distinct).mp (hid.trans same)]

/-- With ids of their own for the creations, no two removals have the same
id. -/
theorem removals_ids_nodup (accounts : Accounts store overlay updates sources)
    (distinct : ((births updates).map StateUpdate.id).Nodup)
    (own : ∀ birth ∈ births updates, ¬ store.Admits birth.id) :
    ((removals updates).map StateUpdate.id).Nodup := by
  have hids : (sources.map (·.recordedId? updates)).Nodup :=
    List.Nodup.map_on (fun _ h _ h' same => accounts.recordedId?_inj distinct own h h' same)
      accounts.nodup
  rw [accounts.ids] at hids
  exact hids.of_map

end Accounts

end LedgerCore
