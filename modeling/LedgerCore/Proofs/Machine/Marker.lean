/-
Markers can be left out. A message and a header are passed over, and so is a
signature at system level; what is left when some of them are taken out of an
accepted transaction is accepted too, with the same updates in the same
groups.

# Positions

Leaving out an instruction moves those behind it forward. The position of an
instruction enters a step at one place only, the updates it records, and
nothing reads it back from there. So a step goes the same way under any
renumbering of positions (`step_renumber`), at whatever position it is and
whatever positions the updates so far bear, and its result is renumbered
alike.

# Markers

A marker that is applied leaves the run as it was (`eq_of_marker`). The walk
without the markers is therefore the walk with them, renumbered by how many
positions before are kept (`steps_kept`). That a marker is refused where a
close is due makes no difference: in an accepted transaction none stands there.
-/
import LedgerCore.Proofs.Machine.Exemption
import LedgerCore.Proofs.Machine.Groups
import Mathlib.Data.Nat.Count

namespace LedgerCore

variable {P R : Type}

-- ================================================================ instructions

/-- The instructions that only mark something: messages, headers, and the
signatures of the system. -/
inductive Instruction.Marker (level : PermissionLevel) : Instruction → Prop
  | msg (content : Bytes) : Marker level (.msg content)
  | header (version flags : UInt8) : Marker level (.header version flags)
  | sig (system : level = .system) : Marker level .sig

/-- The instructions that are not left out, where the first one is at the given
position and those at some positions are left out. -/
def keptFrom (drop : Nat → Bool) (position : Nat) (instructions : List Instruction) :
    List Instruction :=
  ((instructions.zipIdx position).filter fun entry => !drop entry.2).map Prod.fst

/-- The position that an instruction has once others are left out: how many
before it are kept. -/
def place (drop : Nat → Bool) (position : Nat) : Nat :=
  Nat.count (fun earlier => drop earlier = false) position

theorem place_zero (drop : Nat → Bool) : place drop 0 = 0 := Nat.count_zero _

section
variable {drop : Nat → Bool} {position : Nat} {instruction : Instruction} {rest : List Instruction}

theorem keptFrom_cons_of_dropped (dropped : drop position = true) :
    keptFrom drop position (instruction :: rest) = keptFrom drop (position + 1) rest := by
  simp [keptFrom, dropped]

/-- An instruction that is kept comes first of the rest. -/
theorem keptFrom_cons_of_kept (kept : drop position = false) :
    keptFrom drop position (instruction :: rest)
      = instruction :: keptFrom drop (position + 1) rest := by
  simp [keptFrom, kept]

theorem place_succ_of_dropped (dropped : drop position = true) :
    place drop (position + 1) = place drop position := by
  simp [place, Nat.count_succ, dropped]

theorem place_succ_of_kept (kept : drop position = false) :
    place drop (position + 1) = place drop position + 1 := by
  simp [place, Nat.count_succ, kept]

/-- An instruction that is kept is found at its place. -/
theorem getElem?_keptFrom {instructions : List Instruction} {offset start number : Nat}
    (kept : drop (start + offset) = false)
    (here : place drop (start + offset) = place drop start + number) :
    (keptFrom drop start instructions)[number]? = instructions[offset]? := by
  induction instructions generalizing start offset number with
  | nil => rfl
  | cons instruction rest ih =>
      cases offset with
      | zero =>
          obtain rfl : number = 0 := Nat.left_eq_add.mp here
          have first : drop start = false := kept
          rw [keptFrom_cons_of_kept first]
          rfl
      | succ offset =>
          rw [← Nat.add_assoc, Nat.add_right_comm] at kept here
          cases first : drop start with
          | true =>
              rw [← place_succ_of_dropped first] at here
              rw [keptFrom_cons_of_dropped first, ih kept here]
              rfl
          | false =>
              -- the place looked for lies behind the first instruction
              have behind : place drop (start + 1) ≤ place drop (start + 1 + offset) :=
                Nat.count_monotone _ (Nat.le_add_right _ _)
              rw [here, place_succ_of_kept first] at behind
              obtain ⟨number, rfl⟩ := Nat.exists_eq_add_of_le' (Nat.le_of_add_le_add_left behind)
              rw [keptFrom_cons_of_kept first]
              exact ih kept (by rw [here, place_succ_of_kept first]; omega)

end

-- ================================================================ renumbering

/-- The update, at another position. -/
def StateUpdate.renumber (f : Nat → Nat) (update : StateUpdate P) : StateUpdate P :=
  { update with position := f update.position }

/-- The reduction, with its updates at other positions. -/
def Reduction.renumber (f : Nat → Nat) (reduction : Reduction P R) : Reduction P R :=
  { reduction with
    group := reduction.group.map (.renumber f)
    groups := reduction.groups.map (·.map (.renumber f)) }

/-- The run, with its updates at other positions. -/
def Run.renumber (f : Nat → Nat) (run : Run P R) : Run P R :=
  { run with reduction := run.reduction.renumber f }

namespace Reduction

variable (f : Nat → Nat)

@[simp] theorem isOpen_renumber (reduction : Reduction P R) :
    (reduction.renumber f).isOpen = reduction.isOpen := by
  simp [isOpen, renumber]

/-- Updates are recorded under their new positions. -/
theorem renumber_record (reduction : Reduction P R) (updates : List (StateUpdate P)) :
    (reduction.record updates).renumber f
      = (reduction.renumber f).record (updates.map (.renumber f)) := by
  simp [record, renumber]

theorem renumber_closeGroup (reduction : Reduction P R) :
    reduction.closeGroup.renumber f = (reduction.renumber f).closeGroup := by
  simp [closeGroup, renumber]

end Reduction

namespace Machine

variable [StateObject P] [ReducerState R] {machine : Machine P R} {ledger : Ledger P}
  {position : Nat} {instruction : Instruction} {run after : Run P R}

/-- The call, from a run with its updates at other positions. -/
def Call.renumber (f : Nat → Nat) (call : Call P R) : Call P R :=
  { call with run := call.run.renumber f }

/-- The demand, of a run with its updates at other positions. -/
def Demand.renumber (f : Nat → Nat) : Demand P R → Demand P R
  | .fails cause => .fails cause
  | .passes after => .passes (after.renumber f)
  | .signs => .signs
  | .calls call => .calls (call.renumber f)

omit [ReducerState R] in
/-- What an instruction demands does not depend on positions, but to write
its own on what it records. -/
theorem demand_renumber (f : Nat → Nat) (ledger : Ledger P) (position : Nat)
    (instruction : Instruction) (run : Run P R) :
    demand ledger (f position) instruction (run.renumber f)
      = (demand ledger position instruction run).renumber f := by
  have same : (run.renumber f).reduction.mustClose = run.reduction.mustClose := rfl
  have overlay : (run.renumber f).overlay = run.overlay := rfl
  unfold demand
  rw [same]
  split
  · rfl
  · cases instruction with
    | syscall data => rfl
    | read target =>
        dsimp only
        rw [overlay]
        cases run.overlay.look ledger target <;> rfl
    | readIndex index =>
        dsimp only
        split <;> rfl
    | downIndex index =>
        dsimp only
        split <;> rfl
    | up id encoding =>
        dsimp only
        cases ledger.format.decodeWhole encoding with
        | error cause => rfl
        | ok object =>
            -- what is recorded bears the position
            have recorded := run.reduction.renumber_record f [.ofUp position id object encoding]
            exact congrArg (fun reduction => Demand.calls (.object .up object
              ⟨run.overlay.create id object encoding, reduction, run.ctx, run.journal⟩))
              recorded.symm
    | down target =>
        dsimp only
        rw [overlay]
        cases run.overlay.take ledger target with
        | error cause => rfl
        | ok taken =>
            have recorded := run.reduction.renumber_record f [.ofDown position taken.1]
            exact congrArg (fun reduction => Demand.calls (.object .down taken.1.object
              ⟨taken.2, reduction, run.ctx, run.journal⟩)) recorded.symm
    | close =>
        have state : (run.renumber f).reduction.state = run.reduction.state := rfl
        dsimp only
        rw [state]
        cases run.reduction.state with
        | none =>
            exact congrArg (fun reduction => Demand.passes
              ⟨run.overlay, reduction, run.ctx, run.journal⟩)
              (run.reduction.renumber_closeGroup f).symm
        | some state => rfl
    | sig => rfl
    | msg content => rfl
    | header version flags => rfl
    | unknown opcode => rfl

omit [ReducerState R] in
/-- A procedure is carried out on offers, context and journal, and none of
them has positions. -/
theorem carryOut_renumber (f : Nat → Nat) (procedure : Procedure P R) (ledger : Ledger P)
    (call : Call P R) (gated : Except ExecutionError Unit × (Context × Journal)) :
    carryOut procedure ledger (call.renumber f) gated
      = Prod.map id (Run.renumber f) (carryOut procedure ledger call gated) := by
  obtain ⟨op, input, offers, run⟩ := call
  rcases gated with ⟨cause | ⟨⟩, ctx, journal⟩
  · rfl
  · dsimp only [carryOut, Call.renumber, Run.renumber, Reduction.renumber]
    rcases (procedure.body input run.reduction.state).run (run.overlay.resource ledger)
      ⟨offers, [], ctx, journal⟩ with ⟨cause | state, ended⟩
    · rfl
    · rfl

/-- A call comes to the same under other positions. -/
theorem perform_renumber (f : Nat → Nat) (machine : Machine P R) (ledger : Ledger P)
    (call : Call P R) :
    machine.perform ledger (call.renumber f)
      = Prod.map id (Run.renumber f) (machine.perform ledger call) := by
  have state : (call.renumber f).run.reduction.state = call.run.reduction.state := rfl
  have op : (call.renumber f).op = call.op := rfl
  rw [perform_eq, perform_eq, state, op]
  cases machine.procedures.get ⟨reducerKind call.run.reduction.state, call.op⟩ with
  | error cause => rfl
  | ok procedure => exact carryOut_renumber f procedure ledger call _

omit [ReducerState R] in
/-- What follows a call records the entries it pulled at the position of the
instruction, and looks at no other. -/
theorem conclude_renumber (f : Nat → Nat) (position : Nat) (instruction : Instruction)
    (kind : ReducerKind) (pulled : List (ScanEntry P)) (after : Run P R) :
    conclude (f position) instruction kind pulled (after.renumber f)
      = Prod.map id (Run.renumber f) (conclude position instruction kind pulled after) := by
  cases instruction with
  -- only a consuming scan records at this point
  | downIndex index =>
      rw [conclude, conclude, Prod.map, Run.renumber, Run.renumber, Reduction.renumber_record,
        List.map_map]
      rfl
  | close =>
      have state : (after.renumber f).reduction.state = after.reduction.state := rfl
      rw [conclude, conclude, state]
      split
      · rfl
      · rw [Prod.map, Run.renumber, Run.renumber, Reduction.renumber_closeGroup]
        rfl
  | _ => rfl

omit [StateObject P] [ReducerState R] in
/-- Signatures are counted in the context, which has no positions. -/
theorem countSig_renumber (f : Nat → Nat) (machine : Machine P R) (run : Run P R) :
    machine.countSig (run.renumber f) = Prod.map id (Run.renumber f) (machine.countSig run) := by
  have ctx : (run.renumber f).ctx = run.ctx := rfl
  have journal : (run.renumber f).journal = run.journal := rfl
  unfold countSig
  rw [ctx, journal]
  split
  · rfl
  · rcases machine.meter.onSig.run run.ctx run.journal with ⟨cause | ⟨⟩, ctx, journal⟩
    · rfl
    · rfl

/-- A step goes the same way under any renumbering of positions. -/
theorem step_renumber (f : Nat → Nat) (machine : Machine P R) (ledger : Ledger P)
    (position : Nat) (instruction : Instruction) (run : Run P R) :
    machine.step ledger (f position) instruction (run.renumber f)
      = Prod.map id (Run.renumber f) (machine.step ledger position instruction run) := by
  rw [step_eq, step_eq, demand_renumber]
  cases demand ledger position instruction run with
  | fails cause => rfl
  | passes after => rfl
  | signs => exact countSig_renumber f machine run
  | calls call =>
      dsimp only [Demand.renumber, answer]
      rw [perform_renumber]
      rcases machine.perform ledger call with ⟨cause | pulled, after⟩
      · rfl
      · exact conclude_renumber f position instruction _ pulled after

-- ==================================================================== markers

/-- A marker that is applied leaves the run as it was. -/
theorem eq_of_marker (marker : instruction.Marker run.ctx.level)
    (h : machine.step ledger position instruction run = (.ok (), after)) : after = run := by
  unfold step at h
  split at h
  · cases h
  · cases marker with
    | msg content =>
        cases h
        rfl
    | header version flags =>
        cases h
        rfl
    | sig system =>
        have counted := machine.countSig_of_system system
        rw [counted] at h
        cases h
        rfl

/-- A walk over instructions that succeeds succeeds over those that are kept,
if what is left out are markers. -/
theorem steps_kept {drop : Nat → Bool} {level : PermissionLevel} {final : Run P R}
    {walked : List Instruction} :
    ∀ {position : Nat} {run : Run P R}, run.ctx.level = level →
      (∀ offset instruction, walked[offset]? = some instruction → drop (position + offset) = true →
        instruction.Marker level) →
      machine.steps ledger position walked run = (.ok (), final) →
      machine.steps ledger (place drop position) (keptFrom drop position walked)
          (run.renumber (place drop))
        = (.ok (), final.renumber (place drop)) := by
  induction walked with
  | nil =>
      intro position run hlevel markers walk
      cases walk
      rfl
  | cons instruction rest ih =>
      intro position run hlevel markers walk
      rw [steps] at walk
      split at walk
      · cases walk
      next after applied =>
      have stepped := step_keeps (Context.level_kept level) machine ledger position instruction
        hlevel
      rw [applied] at stepped
      have onward := ih stepped (fun offset other here dropped => markers (offset + 1) other here
        (by rwa [Nat.add_right_comm] at dropped)) walk
      cases dropped : drop position with
      -- left out, it has changed nothing
      | true =>
          have marker := markers 0 instruction rfl dropped
          obtain rfl := eq_of_marker (hlevel ▸ marker) applied
          rw [keptFrom_cons_of_dropped dropped]
          rwa [place_succ_of_dropped dropped] at onward
      -- kept, it takes the same step at its new place
      | false =>
          rw [keptFrom_cons_of_kept dropped, steps, step_renumber, applied]
          rwa [place_succ_of_kept dropped] at onward

-- ================================================================ transactions

variable {store : CommittedStore} {ctx : Context} {instructions : List Instruction}

/-- A marker records nothing: an instruction with updates is none. -/
theorem Applies.not_marker {level : PermissionLevel} {updates : List (StateUpdate P)}
    {overlay : Overlay P} {update : StateUpdate P}
    (applies : machine.Applies ledger position run instruction updates overlay)
    (recorded : update ∈ updates) : ¬ instruction.Marker level := by
  intro marker
  cases marker with
  | _ =>
      cases applies
      exact absurd recorded List.not_mem_nil

/-- What a run has recorded stands at positions that are no markers. -/
theorem Reached.recorded_not_marker
    (reached : machine.Reached store ctx instructions position run) (level : PermissionLevel) :
    ∀ update ∈ run.reduction.updates, ∃ instruction,
      instructions[update.position]? = some instruction ∧ ¬ instruction.Marker level := by
  induction reached with
  | start hook =>
      intro update recorded
      cases recorded
  | @step position instruction run after reached here applied ih =>
      obtain ⟨updates, overlay, applies, -, records⟩ := applies_of_step applied
      intro update recorded
      rw [records] at recorded
      rcases List.mem_append.mp recorded with earlier | now
      · exact ih update earlier
      · rw [applies.position_of_mem update now]
        exact ⟨instruction, here, applies.not_marker now⟩

/-- What a walk that succeeds makes of a transaction, once no group is open
and the books settle. -/
theorem verify_of_steps {begun after : Context} {journal : Journal} {final : Run P R}
    (hook : machine.meter.onStart.run ctx .blank = (.ok (), begun, journal))
    (walk : machine.steps ⟨store, machine.format⟩ 0 instructions ⟨.empty, .start, begun, journal⟩
      = (.ok (), final))
    (closed : final.reduction.isOpen = false) (settle : final.ctx.settle = (.ok (), after)) :
    machine.verify store ctx instructions
      = ⟨.ok final.reduction.groups, after, final.journal⟩ := by
  unfold verify
  rw [hook]
  dsimp only
  rw [walk]
  dsimp only
  rw [closed, settle]
  rfl

/-- Markers can be left out of a transaction that is accepted: any of its
messages and headers and, at system level, of its signatures. What is left is
accepted, with the same groups but for the positions in them, and leaves the
same context and journal. Each update bears the position that its instruction
has in what is left. -/
theorem markers_left_out {drop : Nat → Bool} {groups : List (List (StateUpdate P))}
    (markers : ∀ position instruction, instructions[position]? = some instruction →
      drop position = true → instruction.Marker ctx.level)
    (accepted : (machine.verify store ctx instructions).outcome = .ok groups) :
    machine.verify store ctx (keptFrom drop 0 instructions)
        = ⟨.ok (groups.map (·.map (.renumber (place drop)))),
          (machine.verify store ctx instructions).ctx,
          (machine.verify store ctx instructions).journal⟩
      ∧ ∀ group ∈ groups, ∀ update ∈ group, ∃ instruction,
          instructions[update.position]? = some instruction
            ∧ (keptFrom drop 0 instructions)[place drop update.position]? = some instruction := by
  constructor
  · -- the walk without the markers ends as the one with them, and settles alike
    obtain ⟨final, after, reached, closed, rfl, settle, verdict⟩ := settled_of_verify_ok accepted
    obtain ⟨begun, journal, hook, walk⟩ := (reached_iff (Nat.le_refl _)).mp reached
    rw [List.take_length] at walk
    have begins := machine.meter.onStart.run_keeps (Context.level_kept ctx.level) .blank rfl
    rw [hook] at begins
    have kept := steps_kept begins (fun offset instruction here dropped =>
      markers offset instruction here (by rwa [Nat.zero_add] at dropped)) walk
    rw [place_zero] at kept
    rw [verdict]
    exact verify_of_steps hook kept
      ((final.reduction.isOpen_renumber (place drop)).trans closed) settle
  · -- a marker records nothing, so what is recorded is found again
    obtain ⟨run, reached, records⟩ := updates_of_verify_ok accepted
    intro group closed update recorded
    obtain ⟨instruction, here, unmarked⟩ := reached.recorded_not_marker ctx.level update
      (records ▸ List.mem_flatten.mpr ⟨group, closed, recorded⟩)
    have kept : drop (0 + update.position) = false := by
      rw [Nat.zero_add]
      exact Bool.eq_false_iff.mpr fun dropped => unmarked (markers _ _ here dropped)
    refine ⟨instruction, here, (getElem?_keptFrom kept ?_).trans here⟩
    rw [Nat.zero_add, place_zero, Nat.zero_add]

end Machine

namespace Token

/-- Two groups of the system, with markers before, between and after them. -/
def markedMints : List Instruction := [
  .header 1 0, .sig, .up (.stored [5]) fiveTokens, .close, .msg [7], .sig,
  .up (.stored [6]) fiveTokens, .close, .sig]

/-- Of their markers, all but the first signature. -/
def spareMarkers (position : Nat) : Bool := position ∈ [0, 4, 5, 8]

/-- Both groups are recorded without the header, the message and the last two
signatures, each as far ahead of where it was as there are of those before it. -/
theorem markers_left_out_of_mints :
    ∃ groups,
      (plainMachine.verify oneHolding.toStore (.fresh default .system 1) markedMints).outcome
          = .ok groups
        ∧ groups.map (·.map StateUpdate.position) = [[2], [6]]
        ∧ (plainMachine.verify oneHolding.toStore (.fresh default .system 1) [.sig,
            .up (.stored [5]) fiveTokens, .close, .up (.stored [6]) fiveTokens, .close]).outcome
          = .ok (groups.map (·.map (.renumber (place spareMarkers))))
        ∧ [[2], [6]].map (·.map (place spareMarkers)) = [[1], [3]] := by
  have positions : (plainMachine.verify oneHolding.toStore (.fresh default .system 1)
      markedMints).outcome.toOption.map (·.map (·.map StateUpdate.position))
      = some [[2], [6]] := by
    decide +kernel
  obtain ⟨groups, accepted, positions⟩ := Machine.verify_ok_of_toOption_map positions
  have markers : ∀ position instruction, markedMints[position]? = some instruction →
      spareMarkers position = true → instruction.Marker .system := by
    intro position instruction here dropped
    have spare : position ∈ [0, 4, 5, 8] := of_decide_eq_true dropped
    simp only [List.mem_cons, List.not_mem_nil, or_false] at spare
    rcases spare with rfl | rfl | rfl | rfl
    · cases here
      exact .header 1 0
    · cases here
      exact .msg [7]
    · cases here
      exact .sig rfl
    · cases here
      exact .sig rfl
  obtain ⟨left, -⟩ := Machine.markers_left_out markers accepted
  exact ⟨groups, accepted, positions, congrArg Verdict.outcome left, by decide⟩

end Token

end LedgerCore
