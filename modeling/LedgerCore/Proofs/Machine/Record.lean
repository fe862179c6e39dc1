/-
What the records of a run say. The updates a run has recorded and the
overlay it has reached are two accounts of one history, and this file ties
them together.

- `Overlay.Mirrors`: the slots of the overlay are the creations recorded, in
  order, but for the slots emptied since.
- `StateUpdate.Backed`: what stands behind a record when it is made, a
  committed substate, an earlier creation, or a parent to be synthesized
  from. `Along` says it of every record and the records before it.

Both are kept by every step and so hold of every run that is reached.
-/
import LedgerCore.Proofs.Machine.Look
import LedgerCore.Proofs.Machine.Run
import LedgerCore.Proofs.Machine.Scan

namespace LedgerCore

variable {P R : Type}

-- ================================================================== records

/-- What one more element adds to what is picked out. -/
theorem filterMap_take_succ {α β : Type} (pick : α → Option β) {l : List α} {position : Nat}
    {a : α} (here : l[position]? = some a) :
    (l.take (position + 1)).filterMap pick
      = (l.take position).filterMap pick ++ (pick a).toList := by
  rw [List.take_add_one, here, List.filterMap_append]
  refine congrArg (_ ++ ·) ?_
  cases picked : pick a <;> simp [picked]

/-- The id a creation is under. -/
def Instruction.createdId? : Instruction → Option SubstateId
  | up id _ => some id
  | _ => none

/-- The ids of the creations in a list of instructions, in order. -/
def createdIds (instructions : List Instruction) : List SubstateId :=
  instructions.filterMap Instruction.createdId?

namespace StateUpdate

/-- The creations among some records. -/
def births (updates : List (StateUpdate P)) : List (StateUpdate P) :=
  updates.filter (·.created)

/-- The consumptions among some records. -/
def removals (updates : List (StateUpdate P)) : List (StateUpdate P) :=
  updates.filter (!·.created)

@[simp] theorem births_append (first second : List (StateUpdate P)) :
    births (first ++ second) = births first ++ births second := List.filter_append ..

@[simp] theorem removals_append (first second : List (StateUpdate P)) :
    removals (first ++ second) = removals first ++ removals second := List.filter_append ..

variable [StateObject P]

@[simp] theorem births_up (position : Nat) (id : SubstateId) (object : P) (encoding : Bytes) :
    births [ofUp position id object encoding] = [ofUp position id object encoding] := rfl

@[simp] theorem births_down (position : Nat) (found : Found P) :
    births [ofDown position found] = [] := rfl

@[simp] theorem births_pulls (position : Nat) (entries : List (ScanEntry P)) :
    births (entries.map (.ofPull position)) = [] := by
  induction entries with
  | nil => rfl
  | cons entry rest ih => exact ih

@[simp] theorem removals_up (position : Nat) (id : SubstateId) (object : P) (encoding : Bytes) :
    removals [ofUp position id object encoding] = [] := rfl

@[simp] theorem removals_down (position : Nat) (found : Found P) :
    removals [ofDown position found] = [ofDown position found] := rfl

@[simp] theorem removals_pulls (position : Nat) (entries : List (ScanEntry P)) :
    removals (entries.map (.ofPull position)) = entries.map (.ofPull position) := by
  induction entries with
  | nil => rfl
  | cons entry rest ih => exact congrArg (ofPull position entry :: ·) ih

end StateUpdate

open StateUpdate hiding id

-- =========================================================== slots and births

variable [StateObject P]

namespace Overlay

/-- The slots are the creations recorded, in order; a slot that is not empty
holds what its record says. -/
structure Mirrors (overlay : Overlay P) (updates : List (StateUpdate P)) : Prop where
  length_eq : overlay.slots.length = (births updates).length
  recorded : ∀ {number : Nat} {substate : CreatedSubstate P},
    overlay.created? number = some substate →
      ∃ position, (births updates)[number]?
        = some (.ofUp position substate.id substate.object substate.encoding)

namespace Mirrors

variable {overlay : Overlay P} {updates : List (StateUpdate P)}

theorem empty : (Overlay.empty : Overlay P).Mirrors [] where
  length_eq := rfl
  recorded h := by cases h

/-- Consumption empties slots and takes none away. -/
theorem consume (h : overlay.Mirrors updates) (source : ScanSource) :
    (overlay.consume source).Mirrors updates := by
  cases source with
  | committed id => exact ⟨h.length_eq, h.recorded⟩
  | created number =>
      refine ⟨by simpa [Overlay.consume, dropCreated] using h.length_eq, ?_⟩
      intro other substate hsome
      rw [Overlay.consume, created?_dropCreated] at hsome
      split at hsome
      · cases hsome
      · exact h.recorded hsome

/-- However much is consumed, the slots mirror the same records. -/
theorem consume_foldl (h : overlay.Mirrors updates) (sources : List ScanSource) :
    (sources.foldl Overlay.consume overlay).Mirrors updates :=
  List.foldlRecOn (motive := fun (after : Overlay P) => after.Mirrors updates) sources
    Overlay.consume h fun _ mirrors source _ => mirrors.consume source

/-- Only the creations among the records matter. -/
theorem of_births_eq {other : List (StateUpdate P)} (h : overlay.Mirrors updates)
    (same : births other = births updates) : overlay.Mirrors other where
  length_eq := by rw [same, h.length_eq]
  recorded hsome := by rw [same]; exact h.recorded hsome

/-- A creation fills the next slot with what is recorded of it. -/
theorem create (h : overlay.Mirrors updates) (position : Nat) (id : SubstateId) (object : P)
    (encoding : Bytes) :
    (overlay.create id object encoding).Mirrors
      (updates ++ [.ofUp position id object encoding]) := by
  refine ⟨by simp [Overlay.create, h.length_eq], ?_⟩
  intro number substate hsome
  rw [births_append, births_up]
  rcases Nat.lt_trichotomy number overlay.slots.length with hlt | rfl | hgt
  · rw [created?_create_of_lt hlt] at hsome
    rw [List.getElem?_append_left (h.length_eq ▸ hlt)]
    exact h.recorded hsome
  · rw [created?_create_self] at hsome
    cases hsome
    exact ⟨position, by rw [h.length_eq, List.getElem?_concat_length]⟩
  · rw [created?, List.getElem?_eq_none (by simp [Overlay.create]; omega)] at hsome
    cases hsome

end Mirrors

end Overlay

-- ============================================================ what backs a record

/-- What stands behind a record, given the records before it. -/
inductive StateUpdate.Backed (ledger : Ledger P) (before : List (StateUpdate P)) :
    StateUpdate P → Prop
  | up {position : Nat} {id : SubstateId} {object : P} {encoding : Bytes}
      (decoded : ledger.format.decodeWhole encoding = .ok object) :
      Backed ledger before (.ofUp position id object encoding)
  | committed {position : Nat} {id : SubstateId} {object : P} {encoding : Bytes}
      (stored : ledger.store.substate? id = some encoding)
      (decoded : ledger.format.decodeStored encoding = .ok object) :
      Backed ledger before (.ofDown position ⟨id, object, some encoding⟩)
  | created {position born number : Nat} {id : SubstateId} {object : P} {encoding : Bytes}
      (birth : (births before)[number]? = some (.ofUp born id object encoding)) :
      Backed ledger before (.ofDown position ⟨id, object, some encoding⟩)
  | virtual {position : Nat} {parentId : SubstateId} {key encoding : Bytes} {parent object : P}
      (stored : ledger.store.virtualParent (.virtual parentId key) = .ok encoding)
      (decoded : ledger.format.decodeStored encoding = .ok parent)
      (bred : Overlay.Breeds ledger parent key object) :
      Backed ledger before (.ofDown position ⟨.virtual parentId key, object, none⟩)
  | createdVirtual {position : Nat} {index : UInt32} {key : Bytes} {birth : StateUpdate P}
      {object : P}
      (parent : (births before)[index.toNat]? = some birth)
      (bred : Overlay.Breeds ledger birth.object key object) :
      Backed ledger before (.ofDown position ⟨.virtual (.created index) key, object, none⟩)

namespace StateUpdate

variable {ledger : Ledger P} {overlay : Overlay P} {updates : List (StateUpdate P)}

/-- What backs a record still backs it when more came before. -/
theorem Backed.append {update : StateUpdate P} (h : update.Backed ledger updates)
    (more : List (StateUpdate P)) : update.Backed ledger (updates ++ more) := by
  have longer : ∀ {number : Nat} {birth : StateUpdate P},
      (births updates)[number]? = some birth →
        (births (updates ++ more))[number]? = some birth := by
    intro number birth hbirth
    rw [births_append, List.getElem?_append_left (List.getElem?_eq_some_iff.mp hbirth).1]
    exact hbirth
  cases h with
  | up decoded => exact .up decoded
  | committed stored decoded => exact .committed stored decoded
  | created birth => exact .created (longer birth)
  | virtual stored decoded bred => exact .virtual stored decoded bred
  | createdVirtual parent bred => exact .createdVirtual (longer parent) bred

/-- The record of what a reference found is backed. -/
theorem backed_of_finds (mirrors : overlay.Mirrors updates) {target : SubstateRef}
    {found : Found P} (h : overlay.Finds ledger target found) (position : Nat) :
    (ofDown position found).Backed ledger updates := by
  cases h with
  | committed live stored decoded => exact .committed stored decoded
  | virtual live stored decoded bred => exact .virtual stored decoded bred
  | created live =>
      obtain ⟨born, hborn⟩ := mirrors.recorded live
      exact .created hborn
  | createdVirtual live here bred =>
      obtain ⟨born, hborn⟩ := mirrors.recorded here
      exact .createdVirtual hborn bred

/-- The record of what a scan has offered is backed, if the cursor agrees
with look-ups. -/
theorem backed_of_mem_scan (mirrors : overlay.Mirrors updates) {index : SubstateIndex}
    {entry : ScanEntry P}
    (agrees : ∀ raw ∈ ledger.store.scan index, ledger.store.substate? raw.id = some raw.encoding)
    (h : .ok entry ∈ overlay.scan ledger index) (position : Nat) :
    (ofPull position entry).Backed ledger updates := by
  rcases Overlay.ok_mem_scan_iff.mp h with hcreated | ⟨raw, hraw, -, decoded, hentry⟩
  · obtain ⟨number, substate, hsome, -, rfl⟩ := Overlay.mem_createdEntries_iff.mp hcreated
    obtain ⟨born, hborn⟩ := mirrors.recorded hsome
    exact .created hborn
  · rw [hentry]
    exact .committed (agrees raw hraw) decoded

end StateUpdate

/-- What is read off an instruction that creates is what the record of its
creation says, and off the others nothing is read. -/
structure ReadsCreations {β : Type} (format : SubstateFormat P) (pick : Instruction → Option β)
    (read : StateUpdate P → β) : Prop where
  up : ∀ {id : SubstateId} {encoding : Bytes} {object : P} (position : Nat),
    format.decodeWhole encoding = .ok object →
      pick (.up id encoding) = some (read (.ofUp position id object encoding))
  other : ∀ {instruction : Instruction}, instruction.createdId? = none → pick instruction = none

-- ============================================================= along a history

/-- Every element of a list stands in a relation to those before it. -/
def Along {α : Type} (p : List α → α → Prop) (l : List α) : Prop :=
  ∀ before a after, l = before ++ a :: after → p before a

namespace Along

variable {α : Type} {p : List α → α → Prop} {l : List α}

theorem nil : Along p [] := by
  rintro (_ | _) a after h <;> cases h

/-- A history goes on with elements that all stand in the relation to it,
as long as more elements before do not spoil it. -/
theorem append (h : Along p l) (longer : ∀ before more a, p before a → p (before ++ more) a)
    {new : List α} (hnew : ∀ a ∈ new, p l a) : Along p (l ++ new) := by
  intro before a after heq
  rcases List.append_eq_append_iff.mp heq with ⟨skipped, rfl, hskipped⟩ | ⟨rest, rfl, hrest⟩
  · exact longer _ _ _ (hnew a (hskipped ▸ List.mem_append_right _ List.mem_cons_self))
  · cases rest with
    | nil =>
        rw [List.append_nil] at hnew
        rw [List.nil_append] at hrest
        exact hnew a (hrest ▸ List.mem_cons_self)
    | cons first rest =>
        obtain ⟨rfl, -⟩ := List.cons.inj hrest
        exact h before a rest rfl

theorem of_append {more : List α} (h : Along p (l ++ more)) : Along p l := by
  intro before a after heq
  exact h before a (after ++ more) (by rw [heq, List.append_assoc, List.cons_append])

theorem last {a : α} (h : Along p (l ++ [a])) : p l a := h l a [] rfl

end Along

namespace Machine

variable [ReducerState R] {machine : Machine P R}

-- ================================================================ over a run

/-- Every step keeps the overlay and the records in line. -/
theorem mirrors_of_step {ledger : Ledger P} {position : Nat} {instruction : Instruction}
    {run after : Run P R} (h : machine.step ledger position instruction run = (.ok (), after))
    (mirrors : run.overlay.Mirrors run.reduction.updates) :
    after.overlay.Mirrors after.reduction.updates := by
  obtain ⟨updates, overlay, applies, hoverlay, hupdates⟩ := applies_of_step h
  rw [hoverlay, hupdates]
  cases applies with
  | up decoded => exact mirrors.create position _ _ _
  | down look =>
      rw [Overlay.without_eq_consume]
      exact (mirrors.consume _).of_births_eq (by simp)
  | downIndex known =>
      rw [Overlay.consumeAll_eq_foldl]
      exact (mirrors.consume_foldl _).of_births_eq (by simp)
  | _ => exact mirrors.of_births_eq (by simp)

/-- The records a step adds are backed by those before it. -/
theorem backed_of_applies {ledger : Ledger P} {position : Nat} {instruction : Instruction}
    {run : Run P R} {updates : List (StateUpdate P)} {overlay : Overlay P}
    (agrees : ∀ index, ∀ raw ∈ ledger.store.scan index,
      ledger.store.substate? raw.id = some raw.encoding)
    (mirrors : run.overlay.Mirrors run.reduction.updates)
    (h : machine.Applies ledger position run instruction updates overlay) :
    ∀ update ∈ updates, update.Backed ledger run.reduction.updates := by
  intro update hmem
  cases h with
  | up decoded =>
      obtain rfl := List.mem_singleton.mp hmem
      exact .up decoded
  | down look =>
      obtain rfl := List.mem_singleton.mp hmem
      exact backed_of_finds mirrors (Overlay.finds_of_look look) position
  | downIndex known =>
      obtain ⟨entry, hentry, rfl⟩ := List.mem_map.mp hmem
      exact backed_of_mem_scan mirrors (agrees _) (offered_of_mem_pulls hentry) position
  | _ => cases hmem

/-- The creations a step records are those of its instruction. -/
theorem births_of_applies {β : Type} {ledger : Ledger P} {pick : Instruction → Option β}
    {read : StateUpdate P → β} (reads : ReadsCreations ledger.format pick read) {position : Nat}
    {instruction : Instruction} {run : Run P R} {updates : List (StateUpdate P)}
    {overlay : Overlay P}
    (h : machine.Applies ledger position run instruction updates overlay) :
    (births updates).map read = (pick instruction).toList := by
  cases h with
  | up decoded =>
      rw [reads.up position decoded]
      rfl
  | downIndex known =>
      rw [reads.other rfl, births_pulls]
      rfl
  | _ =>
      rw [reads.other rfl]
      rfl

namespace Reached

variable {store : CommittedStore} {ctx : Context} {instructions : List Instruction}
  {position : Nat} {run : Run P R}

/-- Wherever a run comes to, its slots mirror its records. -/
theorem mirrors (h : machine.Reached store ctx instructions position run) :
    run.overlay.Mirrors run.reduction.updates := by
  induction h with
  | start hook => exact .empty
  | step reached here applied ih => exact mirrors_of_step applied ih

/-- Wherever a run comes to, each of its records is backed by those before
it. -/
theorem backed
    (agrees : ∀ index, ∀ raw ∈ store.scan index, store.substate? raw.id = some raw.encoding)
    (h : machine.Reached store ctx instructions position run) :
    Along (fun before update => update.Backed ⟨store, machine.format⟩ before)
      run.reduction.updates := by
  induction h with
  | start hook => exact .nil
  | step reached here applied ih =>
      obtain ⟨updates, overlay, applies, -, hupdates⟩ := applies_of_step applied
      rw [hupdates]
      exact ih.append (fun before more update hbacked => hbacked.append more)
        (backed_of_applies agrees reached.mirrors applies)

/-- What can be read off the instructions of their creations is what the
records of a run say of them, in order. -/
theorem births_map {β : Type} {pick : Instruction → Option β} {read : StateUpdate P → β}
    (reads : ReadsCreations machine.format pick read)
    (h : machine.Reached store ctx instructions position run) :
    (births run.reduction.updates).map read = (instructions.take position).filterMap pick := by
  induction h with
  | start hook => rfl
  | step reached here applied ih =>
      obtain ⟨updates, overlay, applies, -, hupdates⟩ := applies_of_step applied
      rw [hupdates, births_append, List.map_append, ih, births_of_applies reads applies,
        filterMap_take_succ pick here]

/-- The ids a run has created are those of the instructions behind it, in
order. -/
theorem births_ids (h : machine.Reached store ctx instructions position run) :
    (births run.reduction.updates).map StateUpdate.id
      = createdIds (instructions.take position) :=
  h.births_map ⟨fun _ _ => rfl, fun nothing => nothing⟩

end Reached

end Machine

end LedgerCore
