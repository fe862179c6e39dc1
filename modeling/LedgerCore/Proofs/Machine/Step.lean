/-
What one step of the machine can do, said once. Every later proof about
runs goes through this file and never unfolds `Machine.step`.

# Three layers

- `reduce_ok`, `reduce_error`: a procedure call never touches the overlay
  and, of the reduction, at most the reducer state. What a consuming scan
  acts on is what its procedure was handed, as far as it could be decoded
  (`pulls`, `pulls_of_perform`).
- `Applies`: what a successful instruction does to the overlay and which
  updates it records, one constructor per instruction. The constructors
  carry the facts a success implies (what was looked up, what was
  decoded), so that a case split on `Applies` is all a proof needs.
- `applies_of_step`: every successful step is such a case, and the updates
  it records are appended to those made before, whether or not the step
  also closes a group. `overlay_of_step` is what that says of an overlay
  invariant: creations of decoded substates and consumptions are all it
  has to survive.
-/
import LedgerCore.Proofs.Machine.Heard

namespace LedgerCore

variable {P R : Type}

-- ============================================================ what is consumed

/-- What a reference takes from the ledger when it is consumed. Committed
and virtual substates share one set of marks, so they share one form. -/
def SubstateRef.source : SubstateRef → ScanSource
  | .committed id | .virtual id | .createdVirtual id => .committed id
  | .created index => .created index.toNat

theorem Overlay.without_eq_consume (overlay : Overlay P) (target : SubstateRef) :
    overlay.without target = overlay.consume target.source := by
  cases target <;> rfl

/-- To take a substate is to look it up and then to take it out. -/
theorem Overlay.take_ok [StateObject P] {ledger : Ledger P} {overlay after : Overlay P}
    {target : SubstateRef} {found : Found P}
    (h : overlay.take ledger target = .ok (found, after)) :
    overlay.look ledger target = .ok found ∧ overlay.without target = after := by
  unfold Overlay.take at h
  cases look : overlay.look ledger target with
  | error cause =>
      rw [look] at h
      cases h
  | ok seen =>
      rw [look] at h
      cases h
      exact ⟨rfl, rfl⟩

theorem Overlay.consumeAll_eq_foldl (overlay : Overlay P) (entries : List (ScanEntry P)) :
    overlay.consumeAll entries = (entries.map ScanEntry.source).foldl Overlay.consume overlay := by
  rw [Overlay.consumeAll, List.foldl_map]

namespace Reduction

/-- All updates so far, those of the closed groups first. -/
def updates (reduction : Reduction P R) : List (StateUpdate P) :=
  reduction.groups.flatten ++ reduction.group

@[simp] theorem updates_record (reduction : Reduction P R) (more : List (StateUpdate P)) :
    (reduction.record more).updates = reduction.updates ++ more := by
  simp [updates, record]

@[simp] theorem updates_closeGroup (reduction : Reduction P R) :
    reduction.closeGroup.updates = reduction.updates := by
  simp [updates, closeGroup]

@[simp] theorem updates_expectClose (reduction : Reduction P R) :
    reduction.expectClose.updates = reduction.updates := rfl

theorem isOpen_eq_false_iff {reduction : Reduction P R} :
    reduction.isOpen = false ↔ reduction.state = none ∧ reduction.group = [] := by
  simp [isOpen]

@[simp] theorem updates_state (reduction : Reduction P R) (state : Option R) :
    { reduction with state := state }.updates = reduction.updates := rfl

end Reduction

namespace Machine

variable [StateObject P] [ReducerState R]
variable {machine : Machine P R} {ledger : Ledger P}

-- ============================================================ procedure calls

/-- A reduction that succeeds replaces the reducer state and touches
neither the overlay nor the updates. -/
theorem reduce_ok {op : OpSignature} {input : Input P}
    {offers : List (Except ExecutionError (ScanEntry P))} {run after : Run P R}
    {pulled : List (ScanEntry P)}
    (h : machine.reduce ledger op input offers run = (.ok pulled, after)) :
    after.overlay = run.overlay
      ∧ after.reduction = { run.reduction with state := after.reduction.state } := by
  unfold reduce at h
  dsimp only at h
  split at h
  · cases h
  · split at h
    · cases h
    · split at h
      · cases h
      · cases h
        exact ⟨rfl, rfl⟩

/-- A reduction that fails touches neither the overlay nor the reduction. -/
theorem reduce_error {op : OpSignature} {input : Input P}
    {offers : List (Except ExecutionError (ScanEntry P))} {run after : Run P R}
    {cause : ExecutionError}
    (h : machine.reduce ledger op input offers run = (.error cause, after)) :
    after.overlay = run.overlay ∧ after.reduction = run.reduction := by
  unfold reduce at h
  dsimp only at h
  split at h
  · cases h
    exact ⟨rfl, rfl⟩
  · split at h
    · cases h
      exact ⟨rfl, rfl⟩
    · split at h
      · cases h
        exact ⟨rfl, rfl⟩
      · cases h

-- =========================================================== what a step consumes

/-- What the procedure of a consuming scan pulls: of the offers that it was
handed, one for each of its pulls, those that could be decoded. -/
def pulls (machine : Machine P R) (ledger : Ledger P) (index : SubstateIndex) (run : Run P R) :
    List (ScanEntry P) :=
  let handed := machine.handed ledger (.scan ledger .downIndex index run)
  ((run.overlay.scan ledger index).take handed.length).filterMap Except.toOption

/-- The sources an instruction consumes when it succeeds. -/
def consumes (machine : Machine P R) (ledger : Ledger P) (instruction : Instruction)
    (run : Run P R) : List ScanSource :=
  match instruction with
  | .down target => [target.source]
  | .downIndex index => (machine.pulls ledger index run).map ScanEntry.source
  | _ => []

/-- What is pulled is the decodable part of what is handed over. -/
theorem pulls_eq {index : SubstateIndex} {run : Run P R}
    {first rest : List (Except ExecutionError (ScanEntry P))}
    (hands : machine.HandsOver ledger (.scan ledger .downIndex index run) first rest) :
    machine.pulls ledger index run = first.filterMap Except.toOption :=
  congrArg (List.filterMap Except.toOption) hands.take_eq

/-- A consuming scan hands over a first part of its offers, and pulls the
decodable part of it. -/
theorem exists_handed_pulls (machine : Machine P R) (ledger : Ledger P) (index : SubstateIndex)
    (run : Run P R) :
    ∃ first rest, machine.HandsOver ledger (.scan ledger .downIndex index run) first rest
      ∧ machine.pulls ledger index run = first.filterMap Except.toOption := by
  obtain ⟨first, rest, hands⟩ :=
    machine.exists_handsOver ledger (.scan ledger .downIndex index run)
  exact ⟨first, rest, hands, pulls_eq hands⟩

/-- What a procedure pulls, it was offered. -/
theorem offered_of_mem_pulls {index : SubstateIndex} {run : Run P R} {entry : ScanEntry P}
    (h : entry ∈ machine.pulls ledger index run) :
    .ok entry ∈ run.overlay.scan ledger index := by
  obtain ⟨offer, hoffer, hentry⟩ := List.mem_filterMap.mp h
  cases offer with
  | error cause => cases hentry
  | ok offered =>
      cases hentry
      exact List.mem_of_mem_take hoffer

/-- A consuming scan that succeeds acts on what its procedure has pulled. -/
theorem pulls_of_perform {index : SubstateIndex} {run after : Run P R}
    {pulled : List (ScanEntry P)}
    (h : machine.perform ledger (.scan ledger .downIndex index run) = (.ok pulled, after)) :
    machine.pulls ledger index run = pulled := by
  obtain ⟨first, rest, hands, pulls⟩ := machine.exists_handed_pulls ledger index run
  rw [pulls, pulled_of_perform hands h]

-- ============================================================ what a step applies

/-- What an instruction that succeeds does to the overlay: the updates it
records and the overlay it leaves. -/
inductive Applies (machine : Machine P R) (ledger : Ledger P) (position : Nat) (run : Run P R) :
    Instruction → List (StateUpdate P) → Overlay P → Prop
  | syscall (data : Bytes) :
      Applies machine ledger position run (.syscall data) [] run.overlay
  | read {target : SubstateRef} {found : Found P}
      (look : run.overlay.look ledger target = .ok found) :
      Applies machine ledger position run (.read target) [] run.overlay
  | readIndex {index : SubstateIndex} (known : ledger.format.knows index.tag = true) :
      Applies machine ledger position run (.readIndex index) [] run.overlay
  | downIndex {index : SubstateIndex} (known : ledger.format.knows index.tag = true) :
      Applies machine ledger position run (.downIndex index)
        ((machine.pulls ledger index run).map (.ofPull position))
        (run.overlay.consumeAll (machine.pulls ledger index run))
  | up {id : SubstateId} {encoding : Bytes} {object : P}
      (decoded : ledger.format.decodeWhole encoding = .ok object) :
      Applies machine ledger position run (.up id encoding) [.ofUp position id object encoding]
        (run.overlay.create id object encoding)
  | down {target : SubstateRef} {found : Found P}
      (look : run.overlay.look ledger target = .ok found) :
      Applies machine ledger position run (.down target) [.ofDown position found]
        (run.overlay.without target)
  | close : Applies machine ledger position run .close [] run.overlay
  | sig : Applies machine ledger position run .sig [] run.overlay
  | msg (content : Bytes) : Applies machine ledger position run (.msg content) [] run.overlay
  | header (version flags : UInt8) :
      Applies machine ledger position run (.header version flags) [] run.overlay

/-- To hand one object to a procedure does nothing to the overlay and
records nothing. -/
theorem reduceObject_ok {op : Op} {object : P} {run after : Run P R}
    (h : machine.reduceObject ledger op object run = (.ok (), after)) :
    after.overlay = run.overlay ∧ after.reduction.updates = run.reduction.updates := by
  unfold reduceObject at h
  split at h
  · cases h
  · next pulled reduced hreduce =>
      obtain ⟨hoverlay, hreduction⟩ := reduce_ok hreduce
      cases h
      refine ⟨hoverlay, ?_⟩
      rw [Reduction.updates_expectClose, hreduction, Reduction.updates_state]

/-- A scan that succeeds consumes and records what it pulled if it is a
consuming one, and nothing otherwise. -/
theorem reduceScan_ok {position : Nat} {index : SubstateIndex} {consuming : Bool}
    {run after : Run P R}
    (h : machine.reduceScan ledger position index consuming run = (.ok (), after)) :
    ledger.format.knows index.tag = true
      ∧ after.overlay = (if consuming then
          run.overlay.consumeAll (machine.pulls ledger index run) else run.overlay)
      ∧ after.reduction.updates = run.reduction.updates ++ (if consuming then
          (machine.pulls ledger index run).map (.ofPull position) else []) := by
  unfold reduceScan at h
  split at h
  case isFalse => cases h
  case isTrue known =>
    dsimp only at h
    split at h
    · cases h
    · next pulled reduced hreduce =>
        obtain ⟨hoverlay, hreduction⟩ := reduce_ok hreduce
        cases consuming with
        | false =>
            cases h
            refine ⟨known, hoverlay, ?_⟩
            rw [hreduction]
            simp
        | true =>
            -- what is reported is what was handed over
            have hpulls : machine.pulls ledger index run = pulled := pulls_of_perform hreduce
            cases h
            refine ⟨known, ?_, ?_⟩
            · rw [hpulls]
              exact congrArg (Overlay.consumeAll · pulled) hoverlay
            · rw [hpulls, Reduction.updates_record, hreduction]
              rfl

/-- Closing a group moves its updates to the closed ones, and drops none. -/
theorem reduceClose_ok {run after : Run P R}
    (h : machine.reduceClose ledger run = (.ok (), after)) :
    after.overlay = run.overlay ∧ after.reduction.updates = run.reduction.updates := by
  unfold reduceClose at h
  split at h
  · cases h
    exact ⟨rfl, Reduction.updates_closeGroup _⟩
  · -- a reducer that is not done after its end keeps the group open
    split at h
    · cases h
    · next pulled reduced hreduce =>
        obtain ⟨hoverlay, hreduction⟩ := reduce_ok hreduce
        split at h
        · cases h
        · cases h
          refine ⟨hoverlay, ?_⟩
          rw [Reduction.updates_closeGroup, hreduction, Reduction.updates_state]

omit [StateObject P] [ReducerState R] in
/-- To count a signature is a matter of the context. -/
theorem countSig_ok {run after : Run P R} (h : machine.countSig run = (.ok (), after)) :
    after.overlay = run.overlay ∧ after.reduction = run.reduction := by
  unfold countSig at h
  split at h
  · cases h
    exact ⟨rfl, rfl⟩
  · split at h
    · cases h
    · split at h
      next result ctx hspend =>
        cases h
        exact ⟨rfl, rfl⟩

/-- Every successful step is one of the cases of `Applies`, and appends the
updates of that case to those made before. -/
theorem applies_of_step {position : Nat} {instruction : Instruction} {run after : Run P R}
    (h : machine.step ledger position instruction run = (.ok (), after)) :
    ∃ updates overlay, machine.Applies ledger position run instruction updates overlay
      ∧ after.overlay = overlay
      ∧ after.reduction.updates = run.reduction.updates ++ updates := by
  unfold step at h
  split at h
  · cases h
  · -- a close that is due is the one reason not to look at the instruction
    cases instruction with
    | syscall data =>
        dsimp only at h
        split at h
        · cases h
        · next pulled reduced hreduce =>
            obtain ⟨hoverlay, hreduction⟩ := reduce_ok hreduce
            cases h
            refine ⟨[], _, .syscall data, hoverlay, ?_⟩
            rw [hreduction, List.append_nil, Reduction.updates_state]
    | read target =>
        dsimp only at h
        split at h
        · cases h
        · next found look =>
            obtain ⟨hoverlay, hupdates⟩ := reduceObject_ok h
            exact ⟨[], _, .read look, hoverlay, by rw [hupdates, List.append_nil]⟩
    | readIndex index =>
        obtain ⟨known, hoverlay, hupdates⟩ := reduceScan_ok h
        exact ⟨[], _, .readIndex known, hoverlay, hupdates⟩
    | downIndex index =>
        obtain ⟨known, hoverlay, hupdates⟩ := reduceScan_ok h
        exact ⟨_, _, .downIndex known, hoverlay, hupdates⟩
    | up id encoding =>
        dsimp only at h
        split at h
        · cases h
        · next object decoded =>
            obtain ⟨hoverlay, hupdates⟩ := reduceObject_ok h
            exact ⟨_, _, .up decoded, hoverlay, by rw [hupdates, Reduction.updates_record]⟩
    | down target =>
        dsimp only at h
        split at h
        · cases h
        · next found overlay htake =>
            obtain ⟨hoverlay, hupdates⟩ := reduceObject_ok h
            obtain ⟨look, rfl⟩ := Overlay.take_ok htake
            exact ⟨_, _, .down look, hoverlay, by rw [hupdates, Reduction.updates_record]⟩
    | close =>
        obtain ⟨hoverlay, hupdates⟩ := reduceClose_ok h
        exact ⟨[], _, .close, hoverlay, by rw [hupdates, List.append_nil]⟩
    | sig =>
        obtain ⟨hoverlay, hreduction⟩ := countSig_ok h
        exact ⟨[], _, .sig, hoverlay, by rw [hreduction, List.append_nil]⟩
    | msg content =>
        cases h
        exact ⟨[], _, .msg content, rfl, (List.append_nil _).symm⟩
    | header version flags =>
        cases h
        exact ⟨[], _, .header version flags, rfl, (List.append_nil _).symm⟩
    | unknown opcode => cases h

/-- What creating a decoded substate and consuming a source keep of an overlay,
every step that succeeds keeps. -/
theorem overlay_of_step {I : Overlay P → Prop}
    (create : ∀ {overlay : Overlay P} {id : SubstateId} {encoding : Bytes} {object : P},
      ledger.format.decodeWhole encoding = .ok object → I overlay →
        I (overlay.create id object encoding))
    (consume : ∀ {overlay : Overlay P} (source : ScanSource), I overlay →
      I (overlay.consume source))
    {position : Nat} {instruction : Instruction} {run after : Run P R}
    (h : machine.step ledger position instruction run = (.ok (), after))
    (holds : I run.overlay) : I after.overlay := by
  obtain ⟨updates, overlay, applies, hoverlay, -⟩ := applies_of_step h
  rw [hoverlay]
  cases applies with
  | up decoded => exact create decoded holds
  | down look =>
      rw [Overlay.without_eq_consume]
      exact consume _ holds
  | downIndex known =>
      rw [Overlay.consumeAll_eq_foldl]
      exact List.foldlRecOn _ _ holds fun _ kept source _ => consume source kept
  | _ => exact holds

end Machine

end LedgerCore
