/-
What a scan offers, said by the instructions before it. `liveOffers` names
no overlay: of the substates created so far, those the index selects and no
earlier instruction consumed, in boot-up order; then what the store's cursor
yields and no earlier instruction consumed, in cursor order, an encoding
that cannot be decoded as the reason why.

# The argument

A slot is empty, or an id marked, exactly where an instruction before
consumed that source (`gone_iff`), and a slot that is not empty holds the
creation of its number (`Reached.creations_of_created?`). Slots and creations
both run over boot-up numbers, so they agree slot by slot
(`filterMap_zipIdx_congr`).

What consuming does to the offers is said on the offers together with their
sources: it strikes the source off that list and changes nothing else
(`Overlay.sourcedScan_consume`).
-/
import LedgerCore.Proofs.Machine.Children
import LedgerCore.Proofs.Machine.Created

namespace LedgerCore

variable {P R : Type}

-- ================================================================ numbered lists

/-- Two lists that give the same under every number they both have give the
same altogether. -/
theorem filterMap_zipIdx_congr {α β γ : Type} {l : List α} {l' : List β}
    {f : α × Nat → Option γ} {g : β × Nat → Option γ} (length_eq : l.length = l'.length)
    (agree : ∀ number a b, l[number]? = some a → l'[number]? = some b →
      f (a, number) = g (b, number)) :
    l.zipIdx.filterMap f = l'.zipIdx.filterMap g := by
  have mapped : l.zipIdx.map f = l'.zipIdx.map g := by
    refine List.ext_getElem (by simp [length_eq]) ?_
    intro number h h'
    simp only [List.length_map, List.length_zipIdx] at h h'
    simp only [List.getElem_map, List.getElem_zipIdx, Nat.zero_add]
    exact agree number _ _ (List.getElem?_eq_getElem h) (List.getElem?_eq_getElem h')
  calc l.zipIdx.filterMap f
      = (l.zipIdx.map f).filterMap id := by rw [List.filterMap_map]; rfl
    _ = (l'.zipIdx.map g).filterMap id := by rw [mapped]
    _ = l'.zipIdx.filterMap g := by rw [List.filterMap_map]; rfl

namespace Machine

variable [StateObject P] [ReducerState R] {machine : Machine P R} {store : CommittedStore}
  {ctx : Context} {instructions : List Instruction} {position : Nat} {run : Run P R}

-- ================================================================== the offers

open Classical in
/-- What is there for a scan before the instruction at a position, by what
the instructions before it created and consumed. -/
noncomputable def liveOffers (machine : Machine P R) (store : CommittedStore) (ctx : Context)
    (instructions : List Instruction) (position : Nat) (index : SubstateIndex) :
    List (Except ExecutionError (ScanEntry P)) :=
  ((creations machine.format (instructions.take position)).zipIdx.filterMap
      fun (substate, number) =>
        if index.selects substate.encoding
            ∧ ¬ machine.ConsumedBefore store ctx instructions position (.created number) then
          some (.ok ⟨.created number, substate.id, substate.object, substate.encoding⟩)
        else none)
    ++ ((store.scan index).filter fun raw =>
          ¬ machine.ConsumedBefore store ctx instructions position (.committed raw.id)).map
        (Overlay.committedEntry ⟨store, machine.format⟩)

/-- A slot is live where a creation was not consumed, and holds it. -/
theorem Reached.slot_eq (reached : machine.Reached store ctx instructions position run)
    {number : Nat} {slot : Option (CreatedSubstate P)} {substate : CreatedSubstate P}
    (hslot : run.overlay.slots[number]? = some slot)
    (hcreated : (creations machine.format (instructions.take position))[number]?
      = some substate) :
    (machine.ConsumedBefore store ctx instructions position (.created number) ∧ slot = none)
      ∨ (¬ machine.ConsumedBefore store ctx instructions position (.created number)
        ∧ slot = some substate) := by
  have hlive : run.overlay.created? number = slot := by
    rw [Overlay.created?, hslot]
    rfl
  rw [← gone_iff reached]
  cases slot with
  | none => exact .inl ⟨⟨(List.getElem?_eq_some_iff.mp hslot).1, hlive⟩, rfl⟩
  | some live =>
      refine .inr ⟨?_, ?_⟩
      · intro gone
        rw [gone.2] at hlive
        cases hlive
      · rw [← hcreated, reached.creations_of_created? hlive]

/-- A scan offers what is live, and nothing else. -/
theorem scan_eq_liveOffers (reached : machine.Reached store ctx instructions position run)
    (index : SubstateIndex) :
    run.overlay.scan ⟨store, machine.format⟩ index
      = machine.liveOffers store ctx instructions position index := by
  classical
  unfold Overlay.scan liveOffers
  refine congrArg₂ (· ++ ·) ?_ (congrArg _ (List.filter_congr ?_))
  · rw [Overlay.createdEntries, List.map_filterMap]
    refine filterMap_zipIdx_congr reached.length_slots ?_
    intro number slot substate hslot hcreated
    rcases reached.slot_eq hslot hcreated with ⟨consumed, rfl⟩ | ⟨live, rfl⟩
    · simp [consumed]
    · by_cases selects : index.selects substate.encoding = true
      · simp [live, selects]
      · simp [selects]
  · intro raw _
    exact decide_eq_decide.mpr (not_congr (mem_consumed_iff reached))

end Machine

namespace Overlay

-- ====================================================== what is left to offer

/-- The offers of a scan, each with the source behind it. -/
def sourcedScan (ledger : Ledger P) (overlay : Overlay P) (index : SubstateIndex) :
    List (ScanSource × Except ExecutionError (ScanEntry P)) :=
  (overlay.createdEntries index).map (fun entry => (entry.source, .ok entry))
    ++ ((ledger.store.scan index).filter fun raw => raw.id ∉ overlay.consumed).map
        fun raw => (.committed raw.id, committedEntry ledger raw)

variable {ledger : Ledger P} {overlay : Overlay P} {index : SubstateIndex}

/-- Without the sources, these are the offers. -/
theorem map_snd_sourcedScan :
    (overlay.sourcedScan ledger index).map Prod.snd = overlay.scan ledger index := by
  rw [sourcedScan, List.map_append, List.map_map, List.map_map]
  rfl

/-- Without the offers, these are the sources. -/
theorem map_fst_sourcedScan :
    (overlay.sourcedScan ledger index).map Prod.fst = overlay.scanSources ledger index := by
  rw [sourcedScan, List.map_append, List.map_map, List.map_map]
  rfl

/-- An offer that can be decoded names the source behind it. -/
theorem source_of_mem_sourcedScan {source : ScanSource} {entry : ScanEntry P}
    (h : (source, .ok entry) ∈ overlay.sourcedScan ledger index) : entry.source = source := by
  rcases List.mem_append.mp h with created | committed
  · obtain ⟨other, -, hother⟩ := List.mem_map.mp created
    cases hother
    rfl
  · obtain ⟨raw, -, hraw⟩ := List.mem_map.mp committed
    obtain ⟨rfl, hentry⟩ := Prod.mk.inj hraw
    unfold committedEntry at hentry
    split at hentry
    · cases hentry
      rfl
    · cases hentry

/-- An emptied slot is passed over, and the others keep their numbers. -/
theorem createdEntries_dropCreated (overlay : Overlay P) (index : SubstateIndex) (number : Nat) :
    (overlay.dropCreated number).createdEntries index
      = (overlay.createdEntries index).filter (·.source ≠ .created number) := by
  rw [createdEntries, createdEntries, List.filter_filterMap]
  refine filterMap_zipIdx_congr (by simp [dropCreated]) ?_
  intro other slot slot' hslot hslot'
  rw [dropCreated, List.getElem?_set] at hslot
  -- slot by slot: the dropped one is empty, the others are as they were
  by_cases same : number = other
  · subst same
    have emptied : slot = none := by
      rw [if_pos rfl, if_pos (List.getElem?_eq_some_iff.mp hslot').1] at hslot
      exact (Option.some.inj hslot).symm
    subst emptied
    cases slot' with
    | none => rfl
    | some substate =>
        by_cases selects : index.selects substate.encoding <;> simp [selects, Option.filter]
  · rw [if_neg same, hslot'] at hslot
    obtain rfl := Option.some.inj hslot
    cases slot' with
    | none => rfl
    | some substate =>
        by_cases selects : index.selects substate.encoding <;>
          simp [selects, Option.filter, Ne.symm same]

/-- Consuming a source strikes it off the list. -/
theorem sourcedScan_consume (overlay : Overlay P) (source : ScanSource) :
    (overlay.consume source).sourcedScan ledger index
      = (overlay.sourcedScan ledger index).filter (·.1 ≠ source) := by
  rw [sourcedScan, sourcedScan, List.filter_append, List.filter_map, List.filter_map]
  cases source with
  | created number =>
      refine congrArg₂ (· ++ ·) ?_ (congrArg _ ?_)
      · rw [consume, createdEntries_dropCreated]
        rfl
      · rw [consume, consumed_dropCreated]
        exact (List.filter_eq_self.mpr fun raw _ => by simp).symm
  | committed id =>
      refine congrArg₂ (· ++ ·) (congrArg _ ?_) (congrArg _ ?_)
      · refine (List.filter_eq_self.mpr fun entry hentry => ?_).symm
        obtain ⟨number, substate, -, -, rfl⟩ := mem_createdEntries_iff.mp hentry
        simp
      · rw [List.filter_filter]
        refine List.filter_congr fun raw _ => ?_
        simp [consume]

/-- Consuming several sources strikes them all off the list, in whatever
order. -/
theorem sourcedScan_foldl (overlay : Overlay P) (sources : List ScanSource) :
    (sources.foldl Overlay.consume overlay).sourcedScan ledger index
      = (overlay.sourcedScan ledger index).filter (·.1 ∉ sources) := by
  induction sources generalizing overlay with
  | nil => simp
  | cons source rest ih =>
      rw [List.foldl_cons, ih, sourcedScan_consume, List.filter_filter]
      refine List.filter_congr fun offer _ => ?_
      simp [Bool.and_comm]

end Overlay

end LedgerCore
