/-
Index scans and types. A scan's procedure is looked up by the tag of the
index, the substates it is handed are selected by the leading bytes. The two
agree where the index begins with its tag (`SubstateIndex.BeginsWithTag`),
which is so of every index built from leading bytes. An index that was read
from its wire form may be another.

# What is relied on

That an encoding starts with the tag of the object it decodes to
(`SubstateFormat.TagsFirst`), and that the store's scans deliver what the
index selects (`CommittedStore.ScansSelected`). Of created substates nothing
has to be assumed: an overlay holds objects beside the encodings they were
decoded from, which every step keeps (`Machine.Reached.decoded`).
-/
import LedgerCore.Proofs.Machine.Closing
import LedgerCore.Proofs.Machine.Failure
import LedgerCore.Wire.Instruction

namespace LedgerCore

-- ===================================================================== indexes

namespace SubstateIndex

/-- The leading bytes of an index start with its tag. -/
def BeginsWithTag (index : SubstateIndex) : Prop := index.lead.head? = some index.tag.byte

/-- What an index selects starts as the index does. -/
theorem head?_of_selects {index : SubstateIndex} {encoding : Bytes} (nonempty : index.lead ≠ [])
    (h : index.selects encoding = true) : encoding.head? = index.lead.head? := by
  obtain ⟨rest, rfl⟩ := List.isPrefixOf_iff_prefix.mp h
  exact List.head?_append_of_ne_nil _ nonempty

end SubstateIndex

-- ============================================================ what is relied on

variable {P R : Type}

/-- An encoding starts with the tag of its object. -/
def SubstateFormat.TagsFirst [StateObject P] (format : SubstateFormat P) : Prop :=
  ∀ encoding object, format.decodeStored encoding = .ok object →
    encoding.head? = some (StateObject.tag object).byte

/-- A scan delivers what its index selects. -/
def CommittedStore.ScansSelected (store : CommittedStore) : Prop :=
  ∀ index, ∀ raw ∈ store.scan index, index.selects raw.encoding = true

theorem Snapshot.scansSelected (snapshot : Snapshot) : snapshot.toStore.ScansSelected := by
  intro index raw hraw
  exact (mem_scan_iff.mp hraw).2

-- ==================================================================== overlays

namespace Overlay

/-- The live created substates are what their encodings decode to. -/
def Decoded (format : SubstateFormat P) (overlay : Overlay P) : Prop :=
  ∀ number substate, overlay.created? number = some substate →
    format.decodeStored substate.encoding = .ok substate.object

namespace Decoded

variable {format : SubstateFormat P} {overlay : Overlay P}

theorem empty : (Overlay.empty : Overlay P).Decoded format := by
  intro number substate live
  cases live

/-- What is left after consumption was there before. -/
theorem consume (decoded : overlay.Decoded format) (source : ScanSource) :
    (overlay.consume source).Decoded format := by
  intro number substate live
  cases source with
  | committed id => exact decoded number substate live
  | created gone =>
      rw [Overlay.consume, created?_dropCreated] at live
      split at live
      · cases live
      · exact decoded number substate live

/-- A substate is created only if its whole encoding can be decoded. -/
theorem create [StateObject P] (decoded : overlay.Decoded format) {id : SubstateId} {object : P}
    {encoding : Bytes} (whole : format.decodeWhole encoding = .ok object) :
    (overlay.create id object encoding).Decoded format := by
  intro number substate live
  -- the slots before the new one, the new one, and none behind it
  rcases Nat.lt_trichotomy number overlay.slots.length with before | rfl | beyond
  · rw [created?_create_of_lt before] at live
    exact decoded number substate live
  · rw [created?_create_self] at live
    cases live
    exact SubstateFormat.decodeStored_of_decodeWhole whole
  · have past : overlay.slots.length + 1 ≤ number := beyond
    rw [created?, List.getElem?_eq_none (by simpa [Overlay.create] using past)] at live
    cases live

end Decoded

/-- What a scan offers is selected, and is what its encoding decodes to. -/
theorem selected_of_mem_scan {ledger : Ledger P} {overlay : Overlay P} {index : SubstateIndex}
    {entry : ScanEntry P} (selected : ledger.store.ScansSelected)
    (decoded : overlay.Decoded ledger.format) (offered : .ok entry ∈ overlay.scan ledger index) :
    index.selects entry.encoding = true
      ∧ ledger.format.decodeStored entry.encoding = .ok entry.object := by
  rcases ok_mem_scan_iff.mp offered with created | ⟨raw, hraw, -, stored, hentry⟩
  · obtain ⟨number, substate, live, selects, rfl⟩ := mem_createdEntries_iff.mp created
    exact ⟨selects, decoded number substate live⟩
  · rw [hentry]
    exact ⟨selected index raw hraw, stored⟩

/-- What a scan offers is of the type that the leading bytes name. -/
theorem tag_of_mem_scan [StateObject P] {ledger : Ledger P} {overlay : Overlay P}
    {index : SubstateIndex} {entry : ScanEntry P} (tags : ledger.format.TagsFirst)
    (selected : ledger.store.ScansSelected) (decoded : overlay.Decoded ledger.format)
    (nonempty : index.lead ≠ []) (offered : .ok entry ∈ overlay.scan ledger index) :
    index.lead.head? = some (StateObject.tag entry.object).byte := by
  obtain ⟨selects, stored⟩ := selected_of_mem_scan selected decoded offered
  rw [← SubstateIndex.head?_of_selects nonempty selects, tags _ _ stored]

end Overlay

-- ================================================================ transactions

namespace Machine

variable [StateObject P] [ReducerState R] {machine : Machine P R}

variable {store : CommittedStore} {ctx : Context} {instructions : List Instruction}
  {position : Nat} {instruction : Instruction} {run : Run P R}

/-- Wherever a run comes to, what it created decodes to what it is. -/
theorem Reached.decoded (reached : machine.Reached store ctx instructions position run) :
    run.overlay.Decoded machine.format := by
  induction reached with
  | start hook => exact .empty
  | step reached here applied ih =>
      exact overlay_of_step (fun whole decoded => decoded.create whole)
        (fun source decoded => decoded.consume source) applied ih

/-- The objects a scan hands to its procedure are of the type under which
the procedure was looked up exactly if the index begins with its tag, as an
index built from leading bytes does. An index of no bytes selects everything,
of whatever type. -/
theorem scanned_of_type {call : Call P R} {index : SubstateIndex} {entry : ScanEntry P}
    (tags : machine.format.TagsFirst) (selected : store.ScansSelected)
    (reached : machine.Reached store ctx instructions position run)
    (made : Calls ⟨store, machine.format⟩ position run instruction call)
    (scans : call.input = .index index) (offered : .ok entry ∈ call.offers) :
    (index.lead ≠ [] →
        (call.key.op.target = some (StateObject.tag entry.object) ↔ index.BeginsWithTag))
      ∧ ∀ lead, SubstateIndex.ofLead? lead = some index →
          call.key.op.target = some (StateObject.tag entry.object) := by
  obtain ⟨target, scanned⟩ : call.key.op.target = some index.tag
      ∧ .ok entry ∈ run.overlay.scan ⟨store, machine.format⟩ index := by
    cases made with
    | readIndex index' =>
        cases scans
        exact ⟨rfl, offered⟩
    | downIndex index' =>
        cases scans
        exact ⟨rfl, offered⟩
    | _ => cases scans
  have exactly : index.lead ≠ [] →
      (call.key.op.target = some (StateObject.tag entry.object) ↔ index.BeginsWithTag) := by
    intro nonempty
    have lead := Overlay.tag_of_mem_scan tags selected reached.decoded nonempty scanned
    rw [target, SubstateIndex.BeginsWithTag, lead, Option.some.injEq, Option.some.injEq,
      TypeTag.ext_iff, eq_comm]
  refine ⟨exactly, fun lead built => ?_⟩
  have begins : index.BeginsWithTag := SubstateIndex.head?_lead_of_ofLead? built
  refine (exactly ?_).mpr begins
  -- the index of a lead byte has that byte in front
  intro empty
  rw [SubstateIndex.BeginsWithTag, empty] at begins
  cases begins

end Machine

namespace Token

-- ========================================================= on the token ledger

/-- A decoder in two parts succeeds if both do. -/
private theorem ok_of_bind_ok {α β : Type} {first : Except DecodeError α}
    {next : α → Except DecodeError β} {b : β} (h : first >>= next = .ok b) :
    ∃ a, first = .ok a ∧ next a = .ok b := by
  cases first with
  | error cause => cases h
  | ok a => exact ⟨a, rfl, h⟩

/-- What is decoded is of the type that its first byte names. -/
theorem tag_of_decodeFront {bytes left : Bytes} {object : Object}
    (h : decodeFront bytes = .ok (object, left)) : bytes.head? = some object.tag.byte := by
  obtain ⟨⟨tag, rest⟩, first, decoded⟩ := ok_of_bind_ok h
  cases bytes with
  | nil => cases first
  | cons byte bytes =>
      cases first
      clear h
      dsimp only at decoded
      -- by the first byte: tokens, a resource, a parent, a validator
      split at decoded
      · obtain ⟨⟨owner, rest⟩, -, decoded⟩ := ok_of_bind_ok decoded
        obtain ⟨⟨amount, rest⟩, -, decoded⟩ := ok_of_bind_ok decoded
        cases decoded
        rfl
      · obtain ⟨⟨flags, rest⟩, -, decoded⟩ := ok_of_bind_ok decoded
        obtain ⟨⟨addr, rest⟩, -, decoded⟩ := ok_of_bind_ok decoded
        dsimp only at decoded
        split at decoded
        · obtain ⟨⟨owner, rest⟩, -, decoded⟩ := ok_of_bind_ok decoded
          cases decoded
          rfl
        · cases decoded
          rfl
      · obtain ⟨⟨data, rest⟩, -, decoded⟩ := ok_of_bind_ok decoded
        cases decoded
        rfl
      · obtain ⟨⟨key, rest⟩, -, decoded⟩ := ok_of_bind_ok decoded
        cases decoded
        rfl
      · cases decoded

/-- Encodings of the token ledger start with the tag of their object. -/
theorem tagsFirst_format : format.TagsFirst := by
  intro encoding object stored
  unfold SubstateFormat.decodeStored at stored
  split at stored
  · next decoded taken hdecode =>
      cases stored
      obtain ⟨⟨front, rest⟩, hfront, hpair⟩ := ok_of_bind_ok hdecode
      cases hpair
      exact tag_of_decodeFront hfront
  · cases stored

/-- A selection of resources under the tag of tokens. -/
def misnamed : SubstateIndex := ⟨[3], tokensTag⟩

/-- The wire form of a scan over that selection. -/
def misnamedText : String := "\x7b\"DownIndex\":\x7b\"prefix\":[3],\"type_tag\":2\x7d\x7d"

/-- Committed state with one resource. -/
def oneResource : Snapshot := .ofLists [(.stored [1], [3, 0, 1, 0xaa])] [] [] []

end Token

namespace Machine

open Token

/-- A scan over all tokens hands over tokens. -/
theorem tokens_handed_over :
    ∃ (call : Call Object Holding) (entry : ScanEntry Object),
      freeMachine.Reached oneHolding.toStore userContext [.downIndex allTokens, .close] 0 untouched
        ∧ Calls ⟨oneHolding.toStore, freeMachine.format⟩ 0 untouched (.downIndex allTokens) call
        ∧ .ok entry ∈ call.offers ∧ call.key.op.target = some (StateObject.tag entry.object) := by
  let ledger : Ledger Object := ⟨oneHolding.toStore, freeMachine.format⟩
  let entry : ScanEntry Object :=
    ⟨.committed (.stored [1]), .stored [1], .tokens 7 5, fiveTokens⟩
  have offered : .ok entry ∈ (Call.scan ledger .downIndex allTokens untouched).offers := by
    decide +kernel
  have reached := untouched_reached [.downIndex allTokens, .close]
  obtain ⟨-, built⟩ := scanned_of_type tagsFirst_format oneHolding.scansSelected reached
    (.downIndex allTokens) rfl offered
  exact ⟨_, entry, reached, .downIndex allTokens, offered, built [2] rfl⟩

/-- A scan read from its wire form may hand a resource to the procedure for
tokens. -/
theorem resource_handed_over :
    ¬ ∀ (text : String) (instruction : Instruction) (store : CommittedStore)
        (call : Call Object Holding) (index : SubstateIndex) (entry : ScanEntry Object),
        Wire.parse? text = some instruction → store.ScansSelected →
        Calls ⟨store, freeMachine.format⟩ 0 untouched instruction call →
        call.input = .index index → .ok entry ∈ call.offers →
        call.key.op.target = some (StateObject.tag entry.object) := by
  intro typed
  let ledger : Ledger Object := ⟨oneResource.toStore, freeMachine.format⟩
  let entry : ScanEntry Object :=
    ⟨.committed (.stored [1]), .stored [1], .resource ⟨⟨[0xaa]⟩, false, none⟩, [3, 0, 1, 0xaa]⟩
  have read : Wire.parse? misnamedText = some (Instruction.downIndex misnamed) := by
    decide +kernel
  have offered : .ok entry ∈ (Call.scan ledger .downIndex misnamed untouched).offers := by
    decide +kernel
  have same := typed _ _ _ _ _ _ read oneResource.scansSelected (.downIndex misnamed) rfl offered
  exact absurd same (by decide)

end Machine

end LedgerCore
