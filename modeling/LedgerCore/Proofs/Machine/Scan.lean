/-
What index scans offer. `scanSources` names the source behind every offer
of a scan, in the order of the scan and whether or not the offer can be
decoded; it is the list on which "offered" and "offered once" are said.

- `ok_mem_scan_iff`: the decodable offers are the live created substates
  and the committed ones not consumed here that the index selects.
- `scanSources_nodup`: over a store whose cursor yields each id once, no
  source is offered twice.
- `pulls_sources_sublist`: what a consuming scan pulls has its sources in
  that order, so it too meets each source at most once.
-/
import LedgerCore.Proofs.Machine.Step
import Mathlib.Data.List.Nodup

namespace LedgerCore

variable {P R : Type}

/-- A partial map followed by a map is part of a total map that agrees with
the two where both are defined. -/
private theorem map_filterMap_sublist {α β γ : Type} {f : α → Option β} {g : β → γ} {h : α → γ}
    (agree : ∀ a b, f a = some b → g b = h a) (l : List α) :
    ((l.filterMap f).map g).Sublist (l.map h) := by
  induction l with
  | nil => exact List.Sublist.refl _
  | cons a rest ih =>
      rw [List.filterMap_cons, List.map_cons]
      split
      · exact ih.cons _
      · next b hb =>
          rw [List.map_cons, agree a b hb]
          exact ih.cons_cons _

namespace Overlay

-- ================================================================ the offers

/-- The created substates a scan offers are the live ones it selects, each
under its boot-up number. -/
theorem mem_createdEntries_iff {overlay : Overlay P} {index : SubstateIndex}
    {entry : ScanEntry P} :
    entry ∈ overlay.createdEntries index ↔
      ∃ number substate, overlay.created? number = some substate
        ∧ index.selects substate.encoding = true
        ∧ entry = ⟨.created number, substate.id, substate.object, substate.encoding⟩ := by
  simp only [createdEntries, List.mem_filterMap, Prod.exists, List.mem_zipIdx_iff_getElem?,
    Option.bind_eq_some_iff, created?, Option.join_eq_some_iff]
  constructor
  · intro h
    obtain ⟨slot, number, hslot, substate, rfl, hentry⟩ := h
    split at hentry
    case isFalse => cases hentry
    case isTrue hselects =>
      exact ⟨number, substate, hslot, hselects, (Option.some.inj hentry).symm⟩
  · intro h
    obtain ⟨number, substate, hslot, hselects, rfl⟩ := h
    exact ⟨some substate, number, hslot, substate, rfl, by rw [if_pos hselects]⟩

/-- The offers a procedure can make use of. -/
theorem ok_mem_scan_iff {ledger : Ledger P} {overlay : Overlay P} {index : SubstateIndex}
    {entry : ScanEntry P} :
    .ok entry ∈ overlay.scan ledger index ↔
      entry ∈ overlay.createdEntries index
        ∨ ∃ raw ∈ ledger.store.scan index, raw.id ∉ overlay.consumed
            ∧ ledger.format.decodeStored raw.encoding = .ok entry.object
            ∧ entry = ⟨.committed raw.id, raw.id, entry.object, raw.encoding⟩ := by
  simp only [scan, List.mem_append, List.mem_map, Except.ok.injEq, exists_eq_right,
    List.mem_filter, decide_eq_true_eq, and_assoc]
  refine or_congr Iff.rfl (exists_congr fun raw => and_congr Iff.rfl (and_congr Iff.rfl ?_))
  unfold committedEntry
  constructor
  · intro hentry
    split at hentry
    · next object hdecoded =>
        cases hentry
        exact ⟨hdecoded, rfl⟩
    · cases hentry
  · intro h
    obtain ⟨hdecoded, hentry⟩ := h
    rw [hdecoded]
    exact congrArg Except.ok hentry.symm

-- =============================================================== their sources

/-- The sources behind the offers of a scan, in order, whether or not the
offers can be decoded. -/
def scanSources (ledger : Ledger P) (overlay : Overlay P) (index : SubstateIndex) :
    List ScanSource :=
  (overlay.createdEntries index).map ScanEntry.source
    ++ ((ledger.store.scan index).filter fun raw => raw.id ∉ overlay.consumed).map
        fun raw => .committed raw.id

/-- The sources of the decodable offers, in order, are among the sources of
all of them. -/
theorem sources_filterMap_scan_sublist (ledger : Ledger P) (overlay : Overlay P)
    (index : SubstateIndex) :
    (((overlay.scan ledger index).filterMap Except.toOption).map ScanEntry.source).Sublist
      (overlay.scanSources ledger index) := by
  unfold scan scanSources
  rw [List.filterMap_append, List.map_append, List.filterMap_map, List.filterMap_map]
  refine List.Sublist.append ?_ (map_filterMap_sublist ?_ _)
  · rw [show (Except.toOption ∘ Except.ok : ScanEntry P → Option (ScanEntry P)) = some from rfl,
      List.filterMap_some]
  · intro raw entry hentry
    simp only [Function.comp_apply, committedEntry] at hentry
    split at hentry
    · cases hentry
      rfl
    · cases hentry

/-- Behind what a scan offers there is a source of that scan. -/
theorem source_mem_scanSources {ledger : Ledger P} {overlay : Overlay P} {index : SubstateIndex}
    {entry : ScanEntry P} (h : .ok entry ∈ overlay.scan ledger index) :
    entry.source ∈ overlay.scanSources ledger index := by
  refine (sources_filterMap_scan_sublist ledger overlay index).subset (List.mem_map_of_mem ?_)
  exact List.mem_filterMap.mpr ⟨.ok entry, h, rfl⟩

/-- Each created substate is offered under a boot-up number of its own. -/
theorem createdEntries_sources_nodup (overlay : Overlay P) (index : SubstateIndex) :
    ((overlay.createdEntries index).map ScanEntry.source).Nodup := by
  have hsub : ((overlay.createdEntries index).map ScanEntry.source).Sublist
      (overlay.slots.zipIdx.map fun pair => ScanSource.created pair.2) := by
    refine map_filterMap_sublist ?_ _
    rintro ⟨slot, number⟩ entry hentry
    obtain ⟨substate, -, hentry⟩ := Option.bind_eq_some_iff.mp hentry
    split at hentry
    · cases hentry
      rfl
    · cases hentry
  refine hsub.nodup ?_
  rw [show (overlay.slots.zipIdx.map fun pair => ScanSource.created pair.2)
      = (List.range' 0 overlay.slots.length).map ScanSource.created by
    rw [← List.zipIdx_map_snd, List.map_map]
    rfl]
  exact List.Nodup.map (fun a b hab => ScanSource.created.inj hab) List.nodup_range'

/-- Over a store whose cursor yields each id once, no source is offered
twice. -/
theorem scanSources_nodup {ledger : Ledger P} {index : SubstateIndex}
    (once : ((ledger.store.scan index).map RawSubstate.id).Nodup) (overlay : Overlay P) :
    (overlay.scanSources ledger index).Nodup := by
  refine List.nodup_append.mpr ⟨overlay.createdEntries_sources_nodup index, ?_, ?_⟩
  · have hids : (((ledger.store.scan index).filter fun raw => raw.id ∉ overlay.consumed).map
        RawSubstate.id).Nodup := (List.filter_sublist.map _).nodup once
    rw [show (fun raw : RawSubstate => ScanSource.committed raw.id)
      = ScanSource.committed ∘ RawSubstate.id from rfl, ← List.map_map]
    exact hids.map fun a b hab => ScanSource.committed.inj hab
  -- a created substate and a committed one never have the same source
  · intro source hcreated other hcommitted heq
    subst heq
    obtain ⟨entry, hentry, rfl⟩ := List.mem_map.mp hcreated
    obtain ⟨number, substate, -, -, rfl⟩ := mem_createdEntries_iff.mp hentry
    obtain ⟨raw, -, hraw⟩ := List.mem_map.mp hcommitted
    cases hraw

end Overlay

namespace Machine

variable [StateObject P] [ReducerState R] {machine : Machine P R} {ledger : Ledger P}

-- ============================================================== what is pulled

/-- The sources of what a consuming scan pulls, in order, are among those it
offers. -/
theorem pulls_sources_sublist (index : SubstateIndex) (run : Run P R) :
    ((machine.pulls ledger index run).map ScanEntry.source).Sublist
      (run.overlay.scanSources ledger index) :=
  (((List.take_sublist _ _).filterMap _).map _).trans
    (Overlay.sources_filterMap_scan_sublist ledger run.overlay index)

/-- One instruction consumes no source twice. -/
theorem consumes_nodup
    (once : ∀ index, ((ledger.store.scan index).map RawSubstate.id).Nodup)
    (instruction : Instruction) (run : Run P R) :
    (machine.consumes ledger instruction run).Nodup := by
  cases instruction with
  | down target => exact List.nodup_singleton _
  | downIndex index =>
      exact (pulls_sources_sublist index run).nodup (Overlay.scanSources_nodup (once index) _)
  | _ => exact List.nodup_nil

end Machine

end LedgerCore
