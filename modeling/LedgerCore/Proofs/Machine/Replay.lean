/-
The updates of a verified transaction replay over committed state. Applied
one by one they never create what is there, never remove what is absent,
removed before, or different from what they say.

`Committed.after?` is one record applied, and fails on any of these.
`Replays` says how far the state can be known from the records applied:
what the store knows and what was created is there unless it was removed,
and nothing else is. A record that is backed by those before it can then be
applied (`Replays.next`), as long as it removes nothing twice and creates
under an id of its own.
-/
import LedgerCore.Proofs.Machine.Accounts
import Mathlib.Data.List.Induction

namespace LedgerCore

open StateUpdate hiding id

variable {P R : Type}

-- ================================================================ applying records

/-- Committed state as records change it. -/
structure Committed where
  /-- The encodings of the substates that are there. -/
  encoding? : SubstateId → Option Bytes
  /-- The virtual substates that were consumed. -/
  spent : List SubstateId

namespace Committed

/-- Committed state before a transaction. -/
def ofStore (store : CommittedStore) : Committed := ⟨store.substate?, []⟩

/-- Committed state once one record is applied. A creation needs an id that
is not there; a removal needs exactly the encoding it records; a removal
without encoding needs a virtual substate that was not consumed. -/
def after? (state : Committed) (update : StateUpdate P) : Option Committed :=
  match update.created, update.encoding with
  | true, some encoding =>
      if state.encoding? update.id = none then
        some { state with encoding? := Function.update state.encoding? update.id (some encoding) }
      else none
  | true, none => none
  | false, some encoding =>
      if state.encoding? update.id = some encoding then
        some { state with encoding? := Function.update state.encoding? update.id none }
      else none
  | false, none =>
      if update.id.isVirtual ∧ update.id ∉ state.spent then
        some { state with spent := update.id :: state.spent }
      else none

/-- Committed state once all records are applied, one by one. -/
def replay? (state : Committed) (updates : List (StateUpdate P)) : Option Committed :=
  updates.foldlM after? state

/-- One more record is applied to what the others made. -/
theorem replay?_concat (state : Committed) (updates : List (StateUpdate P))
    (update : StateUpdate P) :
    state.replay? (updates ++ [update]) = (state.replay? updates).bind (·.after? update) := by
  simp only [replay?, List.foldlM_append, List.foldlM_cons, List.foldlM_nil, bind_pure]
  rfl

end Committed

-- ============================================================= a replay so far

/-- What is known of committed state when some records were applied. -/
structure Replays (store : CommittedStore) (before : List (StateUpdate P)) (state : Committed) :
    Prop where
  stored : ∀ {id encoding}, store.substate? id = some encoding →
    id ∉ (removals before).map StateUpdate.id → state.encoding? id = some encoding
  born : ∀ {birth}, birth ∈ births before →
    birth.id ∉ (removals before).map StateUpdate.id → state.encoding? birth.id = birth.encoding
  nothing_else : ∀ {id}, store.substate? id = none →
    id ∉ (births before).map StateUpdate.id → state.encoding? id = none
  spent : ∀ {id}, id ∈ state.spent → id ∈ (removals before).map StateUpdate.id

namespace Replays

variable {store : CommittedStore} {before : List (StateUpdate P)} {state : Committed}

theorem start : Replays store ([] : List (StateUpdate P)) (.ofStore store) where
  stored h _ := h
  born h _ := by cases h
  nothing_else h _ := h
  spent h := by cases h

variable [StateObject P]

/-- A creation under an id that is new to store and records can be applied,
and then the id has what was created. -/
theorem create (h : Replays store before state) {position : Nat} {id : SubstateId} {object : P}
    {encoding : Bytes} (unknown : store.substate? id = none)
    (new : id ∉ (births before).map StateUpdate.id) :
    ∃ after, state.after? (ofUp position id object encoding) = some after
      ∧ Replays store (before ++ [ofUp position id object encoding]) after := by
  refine ⟨_, if_pos (h.nothing_else unknown new), ?stored, ?born, ?nothing_else, ?spent⟩
  case stored =>
    intro other raw hstored hkept
    have hne : other ≠ id := by
      intro heq
      subst heq
      rw [unknown] at hstored
      cases hstored
    rw [removals_append, removals_up, List.append_nil] at hkept
    exact (Function.update_of_ne hne _ _).trans (h.stored hstored hkept)
  case born =>
    intro birth hbirth hkept
    rw [removals_append, removals_up, List.append_nil] at hkept
    rw [births_append, births_up] at hbirth
    rcases List.mem_append.mp hbirth with hold | hnew
    · have hne : birth.id ≠ id := fun heq => new (heq ▸ List.mem_map_of_mem hold)
      exact (Function.update_of_ne hne _ _).trans (h.born hold hkept)
    · obtain rfl := List.mem_singleton.mp hnew
      exact Function.update_self _ _ _
  case nothing_else =>
    intro other hunknown hunborn
    rw [births_append, births_up, List.map_append, List.mem_append, not_or] at hunborn
    have hne : other ≠ id := fun heq => hunborn.2 (heq ▸ List.mem_singleton_self _)
    exact (Function.update_of_ne hne _ _).trans (h.nothing_else hunknown hunborn.1)
  case spent =>
    intro other hspent
    rw [removals_append, removals_up, List.append_nil]
    exact h.spent hspent

/-- A removal can be applied to what is there, and then it is not. -/
theorem remove (h : Replays store before state) {position : Nat} {id : SubstateId} {object : P}
    {encoding : Bytes} (there : state.encoding? id = some encoding) :
    ∃ after, state.after? (ofDown position ⟨id, object, some encoding⟩) = some after
      ∧ Replays store (before ++ [ofDown position ⟨id, object, some encoding⟩]) after := by
  refine ⟨_, if_pos there, ?stored, ?born, ?nothing_else, ?spent⟩
  case stored =>
    intro other raw hstored hkept
    rw [removals_append, removals_down, List.map_append, List.mem_append, not_or] at hkept
    have hne : other ≠ id := fun heq => hkept.2 (heq ▸ List.mem_singleton_self _)
    exact (Function.update_of_ne hne _ _).trans (h.stored hstored hkept.1)
  case born =>
    intro birth hbirth hkept
    rw [removals_append, removals_down, List.map_append, List.mem_append, not_or] at hkept
    rw [births_append, births_down, List.append_nil] at hbirth
    have hne : birth.id ≠ id := fun heq => hkept.2 (heq ▸ List.mem_singleton_self _)
    exact (Function.update_of_ne hne _ _).trans (h.born hbirth hkept.1)
  case nothing_else =>
    intro other hunknown hunborn
    rw [births_append, births_down, List.append_nil] at hunborn
    by_cases heq : other = id
    · rw [heq]
      exact Function.update_self _ _ _
    · exact (Function.update_of_ne heq _ _).trans (h.nothing_else hunknown hunborn)
  case spent =>
    intro other hspent
    rw [removals_append, List.map_append]
    exact List.mem_append_left _ (h.spent hspent)

/-- The removal of a virtual substate can be applied once, and changes no
encoding. -/
theorem spend (h : Replays store before state) {position : Nat} {parentId : SubstateId}
    {key : Bytes} {object : P}
    (new : .virtual parentId key ∉ (removals before).map StateUpdate.id) :
    ∃ after, state.after? (ofDown position ⟨.virtual parentId key, object, none⟩) = some after
      ∧ Replays store (before ++ [ofDown position ⟨.virtual parentId key, object, none⟩])
          after := by
  -- a virtual id that was not spent yet
  refine ⟨_, if_pos ⟨rfl, fun hspent => new (h.spent hspent)⟩, ?stored, ?born, ?nothing_else, ?spent⟩
  case stored =>
    intro other raw hstored hkept
    rw [removals_append, List.map_append, List.mem_append, not_or] at hkept
    exact h.stored hstored hkept.1
  case born =>
    intro birth hbirth hkept
    rw [removals_append, List.map_append, List.mem_append, not_or] at hkept
    rw [births_append, births_down, List.append_nil] at hbirth
    exact h.born hbirth hkept.1
  case nothing_else =>
    intro other hunknown hunborn
    rw [births_append, births_down, List.append_nil] at hunborn
    exact h.nothing_else hunknown hunborn
  case spent =>
    intro other hspent
    rw [removals_append, removals_down, List.map_append]
    rcases List.mem_cons.mp hspent with rfl | hold
    · exact List.mem_append_right _ (List.mem_singleton_self _)
    · exact List.mem_append_left _ (h.spent hold)

/-- A record that is backed can be applied, as long as it removes nothing
twice and creates under an id of its own. -/
theorem next (h : Replays store before state) {format : SubstateFormat P}
    {update : StateUpdate P} (backed : update.Backed ⟨store, format⟩ before)
    (removed : ((removals (before ++ [update])).map StateUpdate.id).Nodup)
    (distinct : ((births (before ++ [update])).map StateUpdate.id).Nodup)
    (unknown : ∀ birth ∈ births (before ++ [update]), store.substate? birth.id = none) :
    ∃ after, state.after? update = some after ∧ Replays store (before ++ [update]) after := by
  rw [removals_append, List.map_append, List.nodup_append] at removed
  rw [births_append, List.map_append, List.nodup_append] at distinct
  -- an id that the last record removes was not removed before it
  have kept : ∀ {position : Nat} {found : Found P}, update = ofDown position found →
      found.id ∉ (removals before).map StateUpdate.id := by
    rintro position found rfl hmem
    exact removed.2.2 _ hmem _ (List.mem_singleton_self _) rfl
  cases backed with
  | @up position id object encoding decoded =>
      refine h.create (unknown (ofUp position id object encoding) ?_) fun hmem => ?_
      · rw [births_append]
        exact List.mem_append_right _ (List.mem_singleton_self _)
      · exact distinct.2.2 _ hmem _ (List.mem_singleton_self _) rfl
  | committed stored decoded => exact h.remove (h.stored stored (kept rfl))
  | created birth => exact h.remove (h.born (List.mem_of_getElem? birth) (kept rfl))
  | virtual stored decoded bred => exact h.spend (kept rfl)
  | createdVirtual parent bred => exact h.spend (kept rfl)

end Replays

/-- Records that are backed replay, as long as nothing is removed twice and
creations have ids of their own. -/
theorem replays_of_backed [StateObject P] {store : CommittedStore} {format : SubstateFormat P}
    {updates : List (StateUpdate P)}
    (backed : Along (fun before update => update.Backed ⟨store, format⟩ before) updates)
    (removed : ((removals updates).map StateUpdate.id).Nodup)
    (distinct : ((births updates).map StateUpdate.id).Nodup)
    (unknown : ∀ birth ∈ births updates, store.substate? birth.id = none) :
    ∃ final, (Committed.ofStore store).replay? updates = some final
      ∧ Replays store updates final := by
  induction updates using List.reverseRecOn with
  | nil => exact ⟨_, rfl, .start⟩
  | append_singleton before update ih =>
      obtain ⟨state, hstate, replays⟩ := ih backed.of_append
        (by
          rw [removals_append, List.map_append] at removed
          exact removed.of_append_left)
        (by
          rw [births_append, List.map_append] at distinct
          exact distinct.of_append_left)
        fun birth hbirth => unknown birth (by
          rw [births_append]
          exact List.mem_append_left _ hbirth)
      obtain ⟨after, hafter, hnext⟩ := replays.next backed.last removed distinct unknown
      refine ⟨after, ?_, hnext⟩
      rw [Committed.replay?_concat, hstate]
      exact hafter

-- ============================================================ the updates of a run

namespace StateUpdate

variable [StateObject P] {ledger : Ledger P} {before : List (StateUpdate P)}
  {update : StateUpdate P}

/-- A removal with an encoding is of a committed substate or of an earlier
creation, as the store or the creation has it. -/
theorem Backed.of_encoding (h : update.Backed ledger before) (removal : update.created = false)
    {encoding : Bytes} (hencoding : update.encoding = some encoding) :
    (ledger.store.substate? update.id = some encoding
        ∧ ledger.format.decodeStored encoding = .ok update.object)
      ∨ ∃ birth ∈ births before, birth.id = update.id ∧ birth.encoding = some encoding
          ∧ birth.object = update.object := by
  cases h with
  | up decoded => cases removal
  | committed stored decoded =>
      cases hencoding
      exact .inl ⟨stored, decoded⟩
  | created birth =>
      cases hencoding
      exact .inr ⟨_, List.mem_of_getElem? birth, rfl, rfl, rfl⟩
  | virtual stored decoded bred => cases hencoding
  | createdVirtual parent bred => cases hencoding

/-- A removal without encoding is of a virtual substate, made of its key and
of a parent that is committed or was created before. -/
theorem Backed.of_no_encoding (h : update.Backed ledger before)
    (hencoding : update.encoding = none) :
    ∃ parentId key parent, update.id = .virtual parentId key
      ∧ Overlay.Breeds ledger parent key update.object
      ∧ ((∃ encoding, ledger.store.virtualParent update.id = .ok encoding
            ∧ ledger.format.decodeStored encoding = .ok parent)
        ∨ ∃ index birth, parentId = .created index
            ∧ (births before)[index.toNat]? = some birth ∧ birth.object = parent) := by
  cases h with
  | up decoded => cases hencoding
  | committed stored decoded => cases hencoding
  | created birth => cases hencoding
  | virtual stored decoded bred =>
      exact ⟨_, _, _, rfl, bred, .inl ⟨_, stored, decoded⟩⟩
  | createdVirtual parent bred =>
      exact ⟨_, _, _, rfl, bred, .inr ⟨_, _, rfl, parent, rfl⟩⟩

end StateUpdate

namespace Machine

variable [StateObject P] [ReducerState R] {machine : Machine P R}

/-- The updates of a verified transaction replay cleanly over committed
state, given a store whose cursor yields each id once and agrees with its
look-ups, and creations under distinct new ids. No id is removed twice; a
removal is of a committed substate, of an earlier creation, or of a child
synthesized from a parent; and applied one by one, none of the updates
fails. -/
theorem verified_updates_replay {store : CommittedStore} {ctx : Context}
    {instructions : List Instruction} {groups : List (List (StateUpdate P))}
    (once : ∀ index, ((store.scan index).map RawSubstate.id).Nodup)
    (agrees : ∀ index, ∀ raw ∈ store.scan index, store.substate? raw.id = some raw.encoding)
    (distinct : (createdIds instructions).Nodup)
    (new : ∀ id ∈ createdIds instructions,
      (∃ address, id = .stored address) ∧ store.substate? id = none)
    (accepted : (machine.verify store ctx instructions).outcome = .ok groups) :
    ((removals groups.flatten).map StateUpdate.id).Nodup
      ∧ (∀ before update after, groups.flatten = before ++ update :: after →
          update.created = false →
          (∀ encoding, update.encoding = some encoding →
            (store.substate? update.id = some encoding
                ∧ machine.format.decodeStored encoding = .ok update.object)
              ∨ ∃ birth ∈ births before, birth.id = update.id
                  ∧ birth.encoding = some encoding ∧ birth.object = update.object)
          ∧ (update.encoding = none →
            ∃ parentId key parent, update.id = .virtual parentId key
              ∧ Overlay.Breeds ⟨store, machine.format⟩ parent key update.object
              ∧ ((∃ encoding, store.virtualParent update.id = .ok encoding
                    ∧ machine.format.decodeStored encoding = .ok parent)
                ∨ ∃ index birth, parentId = .created index
                    ∧ (births before)[index.toNat]? = some birth ∧ birth.object = parent)))
      ∧ ∃ final, (Committed.ofStore store).replay? groups.flatten = some final := by
  obtain ⟨run, reached, hupdates⟩ := updates_of_verify_ok accepted
  have hids : (births groups.flatten).map StateUpdate.id = createdIds instructions := by
    rw [← hupdates, reached.births_ids, List.take_length]
  have backed := reached.backed agrees
  obtain ⟨sources, accounts⟩ := reached.accounts once agrees
  rw [hupdates] at backed accounts
  -- what is created here is new to the store, so the store admits none of it
  have fresh : ∀ birth ∈ births groups.flatten,
      (∃ address, birth.id = .stored address) ∧ store.substate? birth.id = none :=
    fun birth hbirth => new birth.id (hids ▸ List.mem_map_of_mem hbirth)
  have own : ∀ birth ∈ births groups.flatten, ¬ store.Admits birth.id := by
    intro birth hbirth h
    rcases h with hvirtual | hknown
    · obtain ⟨address, haddress⟩ := (fresh birth hbirth).1
      rw [haddress] at hvirtual
      cases hvirtual
    · rw [(fresh birth hbirth).2] at hknown
      cases hknown
  have removed := accounts.removals_ids_nodup (hids ▸ distinct) own
  refine ⟨removed, fun before update after heq removal => ?_, ?_⟩
  · have hbacked := backed before update after heq
    exact ⟨fun encoding => hbacked.of_encoding removal, hbacked.of_no_encoding⟩
  · obtain ⟨final, hfinal, -⟩ := replays_of_backed backed removed (hids ▸ distinct)
      fun birth hbirth => (fresh birth hbirth).2
    exact ⟨final, hfinal⟩

end Machine

namespace Token

/-- A parent of validators. -/
def validatorParent : Bytes := [4, 1, 5]

/-- Committed state with five tokens and a parent of validators. -/
def holdingAndParent : Snapshot :=
  .ofLists [(.stored [1], fiveTokens), (.stored [9], validatorParent)] []
    [(.stored [9], validatorParent)] []

/-- Creates tokens and a parent, consumes a child of that parent and one of
the committed parent, and turns all tokens there are into new ones. -/
def everyRemoval : List Instruction := [
  .up (.stored [5]) fiveTokens, .close,
  .up (.stored [6]) validatorParent, .close,
  .down (.createdVirtual (.virtual (.created 1) [3])), .close,
  .down (.virtual (.virtual (.stored [9]) [3])), .close,
  .downIndex allTokens, .up (.stored [7]) [2, 8, 0, 0, 0, 0, 0, 0, 0, 10], .close]

end Token

namespace Machine

open Token

/-- Removals of every kind: four records of consumption, which replay. -/
theorem every_removal_replays :
    ∃ groups, (freeMachine.verify holdingAndParent.toStore systemContext everyRemoval).outcome
        = .ok groups
      ∧ (removals groups.flatten).length = 4
      ∧ ((removals groups.flatten).map StateUpdate.id).Nodup
      ∧ ∃ final, (Committed.ofStore holdingAndParent.toStore).replay? groups.flatten
          = some final := by
  have four : ((freeMachine.verify holdingAndParent.toStore systemContext
      everyRemoval).outcome.toOption.map fun groups => (removals groups.flatten).length)
        = some 4 := by
    decide +kernel
  obtain ⟨groups, accepted, four⟩ := verify_ok_of_toOption_map four
  have new : ∀ id ∈ createdIds everyRemoval,
      (∃ address, id = .stored address) ∧ holdingAndParent.toStore.substate? id = none := by
    intro id hid
    rcases List.mem_cons.mp hid with rfl | hid
    · exact ⟨⟨_, rfl⟩, by decide +kernel⟩
    rcases List.mem_cons.mp hid with rfl | hid
    · exact ⟨⟨_, rfl⟩, by decide +kernel⟩
    obtain rfl := List.mem_singleton.mp hid
    exact ⟨⟨_, rfl⟩, by decide +kernel⟩
  obtain ⟨removed, -, final⟩ := verified_updates_replay holdingAndParent.scan_ids_nodup
    (fun _ _ hraw => (Snapshot.mem_scan_iff.mp hraw).1) (by decide +kernel) new accepted
  exact ⟨groups, accepted, four, removed, final⟩

end Machine

end LedgerCore
