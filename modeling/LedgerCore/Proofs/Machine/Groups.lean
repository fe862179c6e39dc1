/-
The groups of a verified transaction are its segments. A close ends a group
and begins the next, and nothing else does, so the instructions between two
closes make one group (`segment`), and what they record is what the group
holds, in order.

# The argument

A step that does not close appends to the current group and leaves the
closed ones alone; a step that closes hands the current group over, leaves
none behind and a void reducer state (`closes_of_step`). So at every position
the closed groups and the current one are what the positions before it
recorded, segment by segment (`Gathered`, carried along a run by
`gathered_of_step`). What is recorded after the last close would be left in
the current group, and a transaction that ends with one is refused.

A consuming scan is the one instruction whose records no reading of the
instructions tells. It makes one for each entry its procedure was handed that
could be decoded, in that order (`Applies.handed`).
-/
import LedgerCore.Proofs.Token.Conservation

namespace LedgerCore

-- =================================================================== segments

/-- How many groups are closed before a position. -/
def closesBefore (instructions : List Instruction) (position : Nat) : Nat :=
  (instructions.take position).count .close

/-- The positions below a bound, in order, that lie between two closes, with
so many groups closed before. -/
def segmentBelow (instructions : List Instruction) (bound number : Nat) : List Nat :=
  (List.range bound).filter fun position =>
    instructions[position]? ≠ some .close ∧ closesBefore instructions position = number

/-- The positions of a group: those between two closes, in order. -/
def segment (instructions : List Instruction) (number : Nat) : List Nat :=
  segmentBelow instructions instructions.length number

/-- A position where a group starts: the first one, or one right behind a close. -/
def StartsGroup (instructions : List Instruction) (position : Nat) : Prop :=
  position = 0 ∨ ∃ before, before + 1 = position ∧ instructions[before]? = some .close

section
variable {instructions : List Instruction} {position number : Nat} {instruction : Instruction}

/-- One more instruction before a position is one more close, if it is one. -/
theorem closesBefore_succ (here : instructions[position]? = some instruction) :
    closesBefore instructions (position + 1)
      = closesBefore instructions position + if instruction = .close then 1 else 0 := by
  rw [closesBefore, closesBefore, List.take_add_one, here, Option.toList, List.count_append,
    List.count_singleton]
  simp only [beq_iff_eq]

theorem closesBefore_mono (instructions : List Instruction) {earlier : Nat}
    (h : earlier ≤ position) : closesBefore instructions earlier ≤ closesBefore instructions position :=
  (List.take_sublist_take_left h).count_le _

theorem closesBefore_length (instructions : List Instruction) :
    closesBefore instructions instructions.length = instructions.count .close := by
  rw [closesBefore, List.take_length]

/-- A close has fewer closes before it than there are. -/
theorem closesBefore_lt_count (close : instructions[position]? = some .close) :
    closesBefore instructions position < instructions.count .close := by
  obtain ⟨hlt, -⟩ := List.getElem?_eq_some_iff.mp close
  have more := closesBefore_mono instructions (Nat.succ_le_of_lt hlt)
  rw [closesBefore_succ close, if_pos rfl, closesBefore_length] at more
  exact more

/-- The positions of a segment are those with as many closes before them as
its number says. -/
theorem mem_segmentBelow {bound : Nat} :
    position ∈ segmentBelow instructions bound number
      ↔ position < bound ∧ instructions[position]? ≠ some .close
        ∧ closesBefore instructions position = number := by
  simp [segmentBelow]

/-- A close belongs to no segment. -/
theorem segmentBelow_succ_of_close (here : instructions[position]? = some .close) :
    segmentBelow instructions (position + 1) number
      = segmentBelow instructions position number := by
  rw [segmentBelow, List.range_succ, List.filter_append, segmentBelow]
  simp [here]

/-- Any other instruction goes to the segment numbered by the closes before it. -/
theorem segmentBelow_succ (here : instructions[position]? = some instruction)
    (goesOn : instruction ≠ .close) :
    segmentBelow instructions (position + 1) number
      = segmentBelow instructions position number
        ++ if closesBefore instructions position = number then [position] else [] := by
  rw [segmentBelow, List.range_succ, List.filter_append, segmentBelow]
  by_cases own : closesBefore instructions position = number
  · simp [here, goesOn, own]
  · simp [own]

/-- Groups that have not begun have no positions yet. -/
theorem segmentBelow_of_lt (h : closesBefore instructions position < number) :
    segmentBelow instructions position number = [] := by
  rw [List.eq_nil_iff_forall_not_mem]
  intro earlier hmem
  obtain ⟨hlt, -, own⟩ := mem_segmentBelow.mp hmem
  have := closesBefore_mono instructions (Nat.le_of_lt hlt)
  omega

end

namespace Machine

variable {P R : Type} [StateObject P] [ReducerState R] {machine : Machine P R}
  {ledger : Ledger P} {position : Nat} {instruction : Instruction} {run after : Run P R}

-- ====================================================================== steps

/-- Only a close touches the closed groups. -/
theorem groups_of_step (goesOn : instruction ≠ .close)
    (h : machine.step ledger position instruction run = (.ok (), after)) :
    after.reduction.groups = run.reduction.groups := by
  have succeeds := step_ok h
  generalize demand ledger position instruction run = demanded at succeeds
  cases succeeds with
  | closes void => exact absurd rfl goesOn
  | passes instruction => rfl
  | signs counted => exact congrArg Reduction.groups (countSig_ok counted).2
  | calls made performed concluded =>
      obtain ⟨-, -, -, next, final, -, -, -, -, rfl⟩ := perform_admitted performed
      -- whatever was called, its instruction adds to the current group at most
      cases made with
      | close held => exact absurd rfl goesOn
      | _ =>
          cases concluded
          rfl

/-- What a step records that does not close, the current group gains. -/
theorem group_of_step (goesOn : instruction ≠ .close) {updates : List (StateUpdate P)}
    (h : machine.step ledger position instruction run = (.ok (), after))
    (records : after.reduction.updates = run.reduction.updates ++ updates) :
    after.reduction.group = run.reduction.group ++ updates := by
  rw [Reduction.updates, Reduction.updates, groups_of_step goesOn h, List.append_assoc] at records
  exact List.append_cancel_left records

/-- A close hands the current group over and leaves none, and no reducer state. -/
theorem closes_of_step (h : machine.step ledger position .close run = (.ok (), after)) :
    after.reduction.groups = run.reduction.groups ++ [run.reduction.group]
      ∧ after.reduction.group = [] ∧ after.reduction.state = none := by
  have closed : machine.reduceClose ledger run = (.ok (), after) := by
    unfold step at h
    split at h
    · cases h
    · exact h
  unfold reduceClose at closed
  split at closed
  · next void =>
      cases closed
      exact ⟨rfl, rfl, void⟩
  · split at closed
    · cases closed
    · next pulled reduced hreduce =>
        obtain ⟨-, hreduction⟩ := reduce_ok hreduce
        split at closed
        · cases closed
        · next void =>
            cases closed
            refine ⟨?_, rfl, Option.not_isSome_iff_eq_none.mp void⟩
            rw [hreduction]
            rfl

-- ================================================================== gathering

/-- The closed groups and the current one are what the positions so far
recorded, segment by segment. -/
structure Gathered (instructions : List Instruction) (records : Nat → List (StateUpdate P))
    (position : Nat) (reduction : Reduction P R) : Prop where
  groups : reduction.groups = (List.range (closesBefore instructions position)).map fun number =>
    (segmentBelow instructions position number).flatMap records
  group : reduction.group
    = (segmentBelow instructions position (closesBefore instructions position)).flatMap records

variable {instructions : List Instruction} {records : Nat → List (StateUpdate P)}

/-- A step that succeeds gathers what it records. -/
theorem gathered_of_step (here : instructions[position]? = some instruction)
    (h : machine.step ledger position instruction run = (.ok (), after))
    (recorded : after.reduction.updates = run.reduction.updates ++ records position)
    (gathered : Gathered instructions records position run.reduction) :
    Gathered instructions records (position + 1) after.reduction := by
  by_cases close : instruction = .close
  · -- a close turns the segment so far into a group and begins an empty one
    subst close
    obtain ⟨groups, group, -⟩ := closes_of_step h
    have closes : closesBefore instructions (position + 1)
        = closesBefore instructions position + 1 := by
      rw [closesBefore_succ here, if_pos rfl]
    constructor
    · rw [groups, gathered.groups, gathered.group, closes, List.range_succ, List.map_append]
      simp only [segmentBelow_succ_of_close here, List.map_cons, List.map_nil]
    · rw [group, closes, segmentBelow_succ_of_close here,
        segmentBelow_of_lt (Nat.lt_succ_self _), List.flatMap_nil]
  · -- any other instruction adds to the last segment alone
    have closes : closesBefore instructions (position + 1)
        = closesBefore instructions position := by
      rw [closesBefore_succ here, if_neg close, Nat.add_zero]
    constructor
    · rw [groups_of_step close h, gathered.groups, closes]
      refine List.map_congr_left fun number hmem => ?_
      have other : ¬ closesBefore instructions position = number :=
        Nat.ne_of_gt (List.mem_range.mp hmem)
      rw [segmentBelow_succ here close, if_neg other, List.append_nil]
    · rw [group_of_step close h recorded, gathered.group, closes, segmentBelow_succ here close,
        if_pos rfl, List.flatMap_append, List.flatMap_singleton]

omit [StateObject P] [ReducerState R] in
/-- If no group is left at the end of a list, nothing was recorded after the
last close. -/
theorem Gathered.nil_of_last {reduction : Reduction P R}
    (gathered : Gathered instructions records instructions.length reduction)
    (left : reduction.group = []) (here : instructions[position]? = some instruction)
    (last : closesBefore instructions position = instructions.count .close) :
    records position = [] := by
  obtain ⟨hlt, -⟩ := List.getElem?_eq_some_iff.mp here
  rw [gathered.group, List.flatMap_eq_nil_iff] at left
  refine left position (mem_segmentBelow.mpr ⟨hlt, fun close => ?_, ?_⟩)
  · exact Nat.ne_of_lt (closesBefore_lt_count close) last
  · rw [last, closesBefore_length]

variable {store : CommittedStore} {ctx : Context}

/-- What stands before a position that is reached. -/
theorem Reached.before {earlier : Nat} (reached : machine.Reached store ctx instructions position run)
    (h : earlier < position) :
    ∃ instruction before next, instructions[earlier]? = some instruction
      ∧ machine.Reached store ctx instructions earlier before
      ∧ machine.step ⟨store, machine.format⟩ earlier instruction before = (.ok (), next)
      ∧ machine.Reached store ctx instructions (earlier + 1) next := by
  induction reached with
  | start hook => exact absurd h (Nat.not_lt_zero earlier)
  | step reached here applied ih =>
      rcases Nat.lt_succ_iff_lt_or_eq.mp h with hlt | rfl
      · exact ih hlt
      · exact ⟨_, _, _, here, reached, applied, .step reached here applied⟩

/-- Every position records its own updates, since only one run comes to it. -/
theorem exists_records (machine : Machine P R) (store : CommittedStore) (ctx : Context)
    (instructions : List Instruction) :
    ∃ records : Nat → List (StateUpdate P), ∀ position instruction run after,
      instructions[position]? = some instruction →
      machine.Reached store ctx instructions position run →
      machine.step ⟨store, machine.format⟩ position instruction run = (.ok (), after) →
      (∃ overlay, machine.Applies ⟨store, machine.format⟩ position run instruction
          (records position) overlay)
        ∧ after.reduction.updates = run.reduction.updates ++ records position := by
  have each : ∀ position, ∃ updates : List (StateUpdate P), ∀ instruction run after,
      instructions[position]? = some instruction →
      machine.Reached store ctx instructions position run →
      machine.step ⟨store, machine.format⟩ position instruction run = (.ok (), after) →
      (∃ overlay, machine.Applies ⟨store, machine.format⟩ position run instruction
          updates overlay)
        ∧ after.reduction.updates = run.reduction.updates ++ updates := by
    intro position
    -- a position is passed in one way at most, so its records are a function of it
    by_cases taken : ∃ instruction run after, instructions[position]? = some instruction
      ∧ machine.Reached store ctx instructions position run
      ∧ machine.step ⟨store, machine.format⟩ position instruction run = (.ok (), after)
    · obtain ⟨instruction, run, after, here, reached, applied⟩ := taken
      obtain ⟨updates, overlay, applies, -, recorded⟩ := applies_of_step applied
      refine ⟨updates, fun instruction' run' after' here' reached' applied' => ?_⟩
      cases here.symm.trans here'
      cases reached.unique reached'
      cases applied.symm.trans applied'
      exact ⟨⟨overlay, applies⟩, recorded⟩
    · refine ⟨[], fun instruction run after here reached applied => ?_⟩
      exact absurd ⟨instruction, run, after, here, reached, applied⟩ taken
  exact Classical.skolem.mp each

/-- The step lemma of gathering, run over all instructions up to a position. -/
theorem Reached.gathered
    (recorded : ∀ position instruction run after, instructions[position]? = some instruction →
      machine.Reached store ctx instructions position run →
      machine.step ⟨store, machine.format⟩ position instruction run = (.ok (), after) →
      after.reduction.updates = run.reduction.updates ++ records position)
    (reached : machine.Reached store ctx instructions position run) :
    Gathered instructions records position run.reduction := by
  induction reached with
  | start hook => exact ⟨rfl, rfl⟩
  | @step position instruction run after reached here applied ih =>
      exact gathered_of_step here applied
        (recorded position instruction run after here reached applied) ih

-- ================================================================ transactions

/-- An instruction marks what it records with its own position. -/
theorem Applies.position_of_mem {updates : List (StateUpdate P)} {overlay : Overlay P}
    (applies : machine.Applies ledger position run instruction updates overlay) :
    ∀ update ∈ updates, update.position = position := by
  cases applies with
  | downIndex known =>
      intro update hmem
      obtain ⟨entry, -, rfl⟩ := List.mem_map.mp hmem
      rfl
  | up decoded =>
      intro update hmem
      rw [List.mem_singleton.mp hmem]
      rfl
  | down look =>
      intro update hmem
      rw [List.mem_singleton.mp hmem]
      rfl
  | _ =>
      intro update hmem
      exact absurd hmem (List.not_mem_nil)

/-- A consuming scan records what its procedure was handed, in that order, as
far as it could be decoded. -/
theorem Applies.handed {index : SubstateIndex} {updates : List (StateUpdate P)}
    {overlay : Overlay P}
    (applies : machine.Applies ledger position run (.downIndex index) updates overlay) :
    ∃ first rest, machine.HandsOver ledger (.scan ledger .downIndex index run) first rest
      ∧ updates = (first.filterMap Except.toOption).map (.ofPull position) := by
  cases applies with
  | downIndex known =>
      obtain ⟨first, rest, hands, pulled⟩ := machine.exists_handed_pulls ledger index run
      exact ⟨first, rest, hands, congrArg (List.map (StateUpdate.ofPull position)) pulled⟩

/-- The reducer state is void wherever a group starts. -/
theorem Reached.void_of_startsGroup (reached : machine.Reached store ctx instructions position run)
    (starts : StartsGroup instructions position) : run.reduction.state = none := by
  cases reached with
  | start hook => rfl
  | step reached here applied =>
      rcases starts with first | ⟨before, same, close⟩
      · cases first
      · cases same
        cases here.symm.trans close
        exact (closes_of_step applied).2.2

/-- The groups of a verified transaction are its segments. There are as many
as there are closes, and each holds what the instructions between two closes
recorded, in order. An instruction records what `Applies` says, under its own
position: a creation or a consumption is one record, a consuming scan is one
for each substate that the pulls of its procedure were answered with, in the
order of the answers, and anything else is none. After the last close nothing
is recorded, so there is no creation or consumption there, and the reducer
state is void wherever a group starts. -/
theorem groups_are_segments {groups : List (List (StateUpdate P))}
    (accepted : (machine.verify store ctx instructions).outcome = .ok groups) :
    groups.length = instructions.count .close
      ∧ (∃ records : Nat → List (StateUpdate P),
          (∀ position instruction, instructions[position]? = some instruction →
            (∃ run overlay, machine.Reached store ctx instructions position run
              ∧ machine.Applies ⟨store, machine.format⟩ position run instruction
                  (records position) overlay
              ∧ ∀ index, instruction = .downIndex index → ∃ first rest,
                  machine.HandsOver ⟨store, machine.format⟩
                      (.scan ⟨store, machine.format⟩ .downIndex index run) first rest
                    ∧ records position = (first.filterMap Except.toOption).map (.ofPull position))
              ∧ ∀ update ∈ records position, update.position = position)
          ∧ (∀ number < groups.length,
              groups[number]? = some ((segment instructions number).flatMap records))
          ∧ ∀ position instruction, instructions[position]? = some instruction →
              closesBefore instructions position = groups.length →
              records position = [] ∧ (∀ id encoding, instruction ≠ .up id encoding)
                ∧ ∀ target, instruction ≠ .down target)
      ∧ ∀ position run, machine.Reached store ctx instructions position run →
          StartsGroup instructions position → run.reduction.state = none := by
  obtain ⟨final, reached, closed, rfl⟩ := reached_of_verify_ok accepted
  obtain ⟨records, recorded⟩ := machine.exists_records store ctx instructions
  have gathered := reached.gathered fun position instruction run after here reached applied =>
    (recorded position instruction run after here reached applied).2
  have length : final.reduction.groups.length = instructions.count .close := by
    rw [gathered.groups, List.length_map, List.length_range, closesBefore_length]
  have left : final.reduction.group = [] := (Reduction.isOpen_eq_false_iff.mp closed).2
  -- every position was reached and passed, as the last one was
  have applied : ∀ position instruction, instructions[position]? = some instruction →
      ∃ run overlay, machine.Reached store ctx instructions position run
        ∧ machine.Applies ⟨store, machine.format⟩ position run instruction (records position)
            overlay := by
    intro position instruction here
    obtain ⟨hlt, -⟩ := List.getElem?_eq_some_iff.mp here
    obtain ⟨_, run, after, here', reached', applied, -⟩ := reached.before hlt
    cases here.symm.trans here'
    obtain ⟨⟨overlay, applies⟩, -⟩ := recorded position instruction run after here reached' applied
    exact ⟨run, overlay, reached', applies⟩
  refine ⟨length, ⟨records, fun position instruction here => ?_, fun number hlt => ?_,
    fun position instruction here last => ?_⟩,
    fun position run reached => reached.void_of_startsGroup⟩
  · obtain ⟨run, overlay, reached', applies⟩ := applied position instruction here
    refine ⟨⟨run, overlay, reached', applies, ?_⟩, applies.position_of_mem⟩
    rintro index rfl
    exact applies.handed
  · rw [length, ← closesBefore_length] at hlt
    rw [gathered.groups, List.getElem?_map, List.getElem?_range hlt]
    rfl
  · obtain ⟨run, overlay, -, applies⟩ := applied position instruction here
    have empty : records position = [] := gathered.nil_of_last left here (last.trans length)
    rw [empty] at applies
    refine ⟨empty, ?_, ?_⟩
    · rintro id encoding rfl
      cases applies
    · rintro target rfl
      cases applies

end Machine

namespace Token

/-- Tokens are split in one group and swept up in the next, by a scan that
records two consumptions for one instruction: the two halves, as its
procedure was handed them. -/
theorem split_then_sweep_segments :
    segment splitThenSweep 0 = [0, 1, 2] ∧ segment splitThenSweep 1 = [4, 5]
      ∧ ∃ groups records,
          (plainMachine.verify oneHolding.toStore userContext splitThenSweep).outcome = .ok groups
          ∧ groups = [[0, 1, 2].flatMap records, [4, 5].flatMap records]
          ∧ groups.map (·.map StateUpdate.position) = [[0, 1, 2], [4, 4, 5]]
          ∧ ∃ run first rest,
              plainMachine.HandsOver ⟨oneHolding.toStore, plainMachine.format⟩
                (.scan ⟨oneHolding.toStore, plainMachine.format⟩ .downIndex allTokens run) first rest
              ∧ first.map (·.map ScanEntry.object) = [.ok (.tokens 8 2), .ok (.tokens 7 3)]
              ∧ records 4 = (first.filterMap Except.toOption).map (.ofPull 4) := by
  let ledger : Ledger Object := ⟨oneHolding.toStore, plainMachine.format⟩
  let start : Run Object Flow := ⟨.empty, .start, userContext, .blank⟩
  let walked := plainMachine.steps ledger 0 (splitThenSweep.take 4) start
  have walk : walked.1 = .ok () := by decide +kernel
  -- both halves are handed to the scan, in the order of their creation
  have halves : plainMachine.handed ledger (.scan ledger .downIndex allTokens walked.2)
      = [.ok (.tokens 8 2), .ok (.tokens 7 3)] := by
    decide +kernel
  have reached : plainMachine.Reached oneHolding.toStore userContext splitThenSweep 4 walked.2 :=
    Machine.reached_of_walk (by decide) rfl walk
  have positions : (plainMachine.verify oneHolding.toStore userContext
      splitThenSweep).outcome.toOption.map (·.map (·.map StateUpdate.position))
      = some [[0, 1, 2], [4, 4, 5]] := by
    decide +kernel
  obtain ⟨groups, accepted, positions⟩ := Machine.verify_ok_of_toOption_map positions
  obtain ⟨length, ⟨records, recorded, held, -⟩, -⟩ := Machine.groups_are_segments accepted
  obtain ⟨⟨run, overlay, reached', -, swept⟩, -⟩ := recorded 4 (.downIndex allTokens) rfl
  obtain ⟨first, rest, hands, consumed⟩ := swept allTokens rfl
  -- the run before the scan is the one that was computed
  obtain rfl := reached'.unique reached
  have two : groups.length = 2 := length.trans (by decide)
  have begins : groups[0]? = some ([0, 1, 2].flatMap records) := held 0 (two ▸ by decide)
  have follows : groups[1]? = some ([4, 5].flatMap records) := held 1 (two ▸ by decide)
  refine ⟨by decide, by decide, groups, records, accepted, ?_, positions, walked.2, first, rest,
    hands, hands.handed.symm.trans halves, consumed⟩
  refine List.ext_getElem? fun number => ?_
  match number with
  | 0 => exact begins
  | 1 => exact follows
  | number + 2 => exact List.getElem?_eq_none (two ▸ Nat.le_add_left 2 number)

end Token

end LedgerCore
