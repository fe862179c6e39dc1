/-
What a reference finds, said once: `Overlay.Finds` has one constructor for
each way to look a substate up, with everything a success implies about the
store, the overlay and the decoder. Proofs split on it and never unfold a
look-up.
-/
import LedgerCore.Overlay

namespace LedgerCore.Overlay

variable {P : Type} [StateObject P] {ledger : Ledger P} {overlay : Overlay P}

/-- A child is what the format makes of a key and of the first byte of its
parent's data. -/
def Breeds (ledger : Ledger P) (parent : P) (key : Bytes) (child : P) : Prop :=
  ∃ childType, (StateObject.childData? parent).bind List.head? = some childType
    ∧ ledger.format.synthesize childType key = .ok child

/-- What a reference finds, and why. -/
inductive Finds (ledger : Ledger P) (overlay : Overlay P) : SubstateRef → Found P → Prop
  | committed {id : SubstateId} {encoding : Bytes} {object : P}
      (live : id ∉ overlay.consumed)
      (stored : ledger.store.substate? id = some encoding)
      (decoded : ledger.format.decodeStored encoding = .ok object) :
      Finds ledger overlay (.committed id) ⟨id, object, some encoding⟩
  | virtual {parentId : SubstateId} {key encoding : Bytes} {parent object : P}
      (live : .virtual parentId key ∉ overlay.consumed)
      (stored : ledger.store.virtualParent (.virtual parentId key) = .ok encoding)
      (decoded : ledger.format.decodeStored encoding = .ok parent)
      (bred : Breeds ledger parent key object) :
      Finds ledger overlay (.virtual (.virtual parentId key))
        ⟨.virtual parentId key, object, none⟩
  | created {index : UInt32} {substate : CreatedSubstate P}
      (live : overlay.created? index.toNat = some substate) :
      Finds ledger overlay (.created index)
        ⟨substate.id, substate.object, some substate.encoding⟩
  | createdVirtual {index : UInt32} {key : Bytes} {parent : CreatedSubstate P} {object : P}
      (live : .virtual (.created index) key ∉ overlay.consumed)
      (here : overlay.created? index.toNat = some parent)
      (bred : Breeds ledger parent.object key object) :
      Finds ledger overlay (.createdVirtual (.virtual (.created index) key))
        ⟨.virtual (.created index) key, object, none⟩

/-- A synthesized substate is a child of its parent, under the id it was
asked for, and has no encoding. -/
theorem breeds_of_synthesize {id : SubstateId} {parent : P} {key : Bytes} {found : Found P}
    (h : synthesize ledger id parent key = .ok found) :
    ∃ object, Breeds ledger parent key object ∧ found = ⟨id, object, none⟩ := by
  unfold synthesize at h
  split at h
  · cases h
  · next childType htype =>
      split at h
      · next object hmade =>
          cases h
          exact ⟨object, ⟨childType, htype, hmade⟩, rfl⟩
      · cases h

/-- Every successful look-up is one of the cases of `Finds`. -/
theorem finds_of_look {target : SubstateRef} {found : Found P}
    (h : overlay.look ledger target = .ok found) : overlay.Finds ledger target found := by
  cases target with
  | committed id =>
      simp only [look, lookCommitted] at h
      split at h
      · cases h
      · next live =>
          split at h
          · cases h
          · next encoding stored =>
              split at h
              · next object decoded =>
                  cases h
                  exact .committed live stored decoded
              · cases h
  | virtual id =>
      simp only [look, lookVirtual] at h
      split at h
      · cases h
      · next live =>
          split at h
          · cases h
          · next key hkey =>
              -- only a virtual id has a key
              obtain ⟨parentId, rfl⟩ : ∃ parentId, id = .virtual parentId key := by
                cases id with
                | virtual parentId other =>
                    cases hkey
                    exact ⟨parentId, rfl⟩
                | stored address => cases hkey
                | created index => cases hkey
              cases stored : ledger.store.virtualParent (.virtual parentId key) with
              | error cause =>
                  rw [stored] at h
                  cases h
              | ok encoding =>
                  cases decoded : ledger.format.decodeStored encoding with
                  | error cause =>
                      rw [stored] at h
                      simp only [bind, Except.bind, decoded] at h
                      cases h
                  | ok parent =>
                      rw [stored] at h
                      simp only [bind, Except.bind, decoded] at h
                      obtain ⟨object, bred, rfl⟩ := breeds_of_synthesize h
                      exact .virtual live stored decoded bred
  | created index =>
      simp only [look, lookCreated] at h
      split at h
      · cases h
      · next substate live =>
          cases h
          exact .created live
  | createdVirtual id =>
      simp only [look, lookCreatedVirtual] at h
      split at h
      · cases h
      · next live =>
          split at h
          · split at h
            · cases h
            · next parent here =>
                obtain ⟨object, bred, rfl⟩ := breeds_of_synthesize h
                exact .createdVirtual live here bred
          · cases h

end LedgerCore.Overlay
