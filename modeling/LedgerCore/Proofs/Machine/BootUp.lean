/-
Boot-up numbers are names that last. Instructions bring up substates, in all
groups together one after another, and a substate is referred to by how many
were brought up before it (`ups`). At every position of a run, a number stands
for what was brought up under it, which the instructions alone settle, or for
nothing, once that is consumed (`boot_up_numbers_last`).

# What a number stands for

No instruction that brings up something undecodable is ever got past, so in a
run the substates created are all that were brought up (`Reached.ups_eq`). A
slot that is not empty holds the creation of its number (`Reached.slot_eq`).

# When it stands for nothing

A slot is emptied where its source is consumed, and there are two ways to
consume a substate that was created here: by its number, and by a scan that
pulls it (`spentBefore_iff`). Whether the first has happened can be read off
the instructions; what a scan pulls is up to the run.
-/
import LedgerCore.Proofs.Machine.Offers

namespace LedgerCore

variable {P R : Type}

-- ================================================================ instructions

/-- What an instruction brings up: an id and an encoding. -/
def Instruction.up? : Instruction → Option (SubstateId × Bytes)
  | up id encoding => some (id, encoding)
  | _ => none

/-- All that instructions bring up, in boot-up order. -/
def ups (instructions : List Instruction) : List (SubstateId × Bytes) :=
  instructions.filterMap Instruction.up?

/-- Id and encoding of what is brought up stand in the instruction and in its
record. -/
theorem readsCreations_up [StateObject P] (format : SubstateFormat P) :
    ReadsCreations format Instruction.up?
      ((fun substate => (substate.id, substate.encoding)) ∘ StateUpdate.creation) where
  up position decoded := rfl
  other {instruction} nothing := by
    cases instruction with
    | up id encoding => cases nothing
    | _ => rfl

/-- What is brought up later leaves the numbers as they are. -/
theorem ups_take_left (instructions : List Instruction) (position : Nat) :
    ups (instructions.take position) <+: ups instructions :=
  (List.take_prefix position instructions).filterMap _

/-- The substate is what instructions bring up under a number: that id, that
encoding, and what it decodes to. -/
structure CreatedSubstate.BroughtUp (format : SubstateFormat P) (instructions : List Instruction)
    (number : Nat) (substate : CreatedSubstate P) : Prop where
  here : (ups instructions)[number]? = some (substate.id, substate.encoding)
  decoded : format.decodeWhole substate.encoding = .ok substate.object

/-- A number stands for one substate, since an encoding decodes to one
object. -/
theorem CreatedSubstate.BroughtUp.unique {format : SubstateFormat P}
    {instructions : List Instruction} {number : Nat} {substate other : CreatedSubstate P}
    (h : substate.BroughtUp format instructions number)
    (h' : other.BroughtUp format instructions number) : substate = other := by
  obtain ⟨id, object, encoding⟩ := substate
  cases h.here.symm.trans h'.here
  cases h.decoded.symm.trans h'.decoded
  rfl

/-- A creation counts if its encoding can be decoded as a whole. -/
theorem decoded_of_mem_creations {format : SubstateFormat P} {instructions : List Instruction}
    {substate : CreatedSubstate P} (h : substate ∈ creations format instructions) :
    format.decodeWhole substate.encoding = .ok substate.object := by
  obtain ⟨instruction, -, created⟩ := List.mem_filterMap.mp h
  cases instruction with
  | up id encoding =>
      rw [Instruction.creation?] at created
      cases decoded : format.decodeWhole encoding with
      | error cause =>
          rw [decoded] at created
          cases created
      | ok object =>
          rw [decoded] at created
          cases created
          exact decoded
  | _ => cases created

-- ===================================================================== look-ups

namespace Overlay

variable [StateObject P] {ledger : Ledger P} {overlay : Overlay P} {found : Found P}

/-- A reference by number finds what is in the slot of that number, nothing
else. -/
theorem look_created_iff {index : UInt32} :
    overlay.look ledger (.created index) = .ok found
      ↔ ∃ substate, overlay.created? index.toNat = some substate
          ∧ found = ⟨substate.id, substate.object, some substate.encoding⟩ := by
  constructor
  · intro h
    cases finds_of_look h with
    | created live => exact ⟨_, live, rfl⟩
  · rintro ⟨substate, live, rfl⟩
    simp only [look, lookCreated, live]

/-- A child of what was created here is found if it was not consumed, its
parent is in its slot, and the format makes that child of it. -/
theorem look_createdVirtual_iff {index : UInt32} {key : Bytes} :
    overlay.look ledger (.createdVirtual (.virtual (.created index) key)) = .ok found
      ↔ .virtual (.created index) key ∉ overlay.consumed
          ∧ ∃ parent object, overlay.created? index.toNat = some parent
            ∧ Breeds ledger parent.object key object
            ∧ found = ⟨.virtual (.created index) key, object, none⟩ := by
  constructor
  · intro h
    cases finds_of_look h with
    | createdVirtual live here bred => exact ⟨live, _, _, here, bred, rfl⟩
  · rintro ⟨live, parent, object, here, ⟨childType, type, made⟩, rfl⟩
    simp only [look, lookCreatedVirtual, if_neg live, here, synthesize, type, made]

end Overlay

-- ========================================================================= runs

namespace Machine

variable [StateObject P] [ReducerState R] {machine : Machine P R} {store : CommittedStore}
  {ctx : Context} {instructions : List Instruction} {position : Nat} {run : Run P R}

/-- What a run has got past was brought up and created. -/
theorem Reached.ups_eq (reached : machine.Reached store ctx instructions position run) :
    ups (instructions.take position)
      = (creations machine.format (instructions.take position)).map
          fun substate => (substate.id, substate.encoding) := by
  rw [← reached.creations_eq, List.map_map]
  exact (reached.births_map (readsCreations_up machine.format)).symm

/-- What a run has created under a number is what the whole list brings up
under it. -/
theorem Reached.broughtUp (reached : machine.Reached store ctx instructions position run)
    {number : Nat} {substate : CreatedSubstate P}
    (created : (creations machine.format (instructions.take position))[number]? = some substate) :
    substate.BroughtUp machine.format instructions number := by
  constructor
  · have raised : (ups (instructions.take position))[number]?
        = some (substate.id, substate.encoding) := by
      rw [reached.ups_eq, List.getElem?_map, created]
      rfl
    obtain ⟨hlt, hget⟩ := List.getElem?_eq_some_iff.mp raised
    rw [← hget]
    exact List.prefix_iff_getElem?.mp (ups_take_left instructions position) number hlt
  · exact decoded_of_mem_creations (List.mem_of_getElem? created)

-- ================================================================= consumption

/-- An instruction before that position consumed what was brought up under a
number: it referred to it by the number, or its scan pulled it. -/
inductive SpentBefore (machine : Machine P R) (store : CommittedStore) (ctx : Context)
    (instructions : List Instruction) (position number : Nat) : Prop
  | named {earlier : Nat} {index : UInt32} (before : earlier < position)
      (here : instructions[earlier]? = some (.down (.created index)))
      (name : index.toNat = number) :
      SpentBefore machine store ctx instructions position number
  | pulled {earlier : Nat} {index : SubstateIndex} {run : Run P R} {entry : ScanEntry P}
      (before : earlier < position)
      (reached : machine.Reached store ctx instructions earlier run)
      (here : instructions[earlier]? = some (.downIndex index))
      (pulls : entry ∈ machine.pulls ⟨store, machine.format⟩ index run)
      (source : entry.source = .created number) :
      SpentBefore machine store ctx instructions position number

/-- There is no other way to consume what was created here. -/
theorem spentBefore_iff {number : Nat}
    (reached : machine.Reached store ctx instructions position run) :
    machine.SpentBefore store ctx instructions position number
      ↔ machine.ConsumedBefore store ctx instructions position (.created number) := by
  constructor
  · -- each way to consume it is a step that was taken
    intro spent
    cases spent with
    | @named earlier index before here name =>
        obtain ⟨_, run, after, here', reached', applied, -⟩ := reached.before before
        cases here.symm.trans here'
        refine ⟨earlier, before, _, run, after, reached', here, applied, ?_⟩
        rw [← name]
        exact List.mem_singleton_self _
    | @pulled earlier index run entry before reached' here pulls source =>
        obtain ⟨_, other, after, here', reached'', applied, -⟩ := reached.before before
        cases here.symm.trans here'
        cases reached'.unique reached''
        refine ⟨earlier, before, _, run, after, reached', here, applied, ?_⟩
        rw [← source]
        exact List.mem_map_of_mem pulls
  · -- a step that consumes a created substate names it or pulls it
    intro consumed
    obtain ⟨earlier, before, instruction, run, after, reached', here, applied, consumes⟩ := consumed
    cases instruction with
    | down target =>
        have source : .created number = target.source := List.mem_singleton.mp consumes
        cases target with
        | created index =>
            cases source
            exact .named before here rfl
        | _ => cases source
    | downIndex index =>
        obtain ⟨entry, pulls, source⟩ := List.mem_map.mp consumes
        exact .pulled before reached' here pulls source
    | _ => cases consumes

/-- Something was brought up under the number before that position, and is
not consumed. -/
structure Stands (machine : Machine P R) (store : CommittedStore) (ctx : Context)
    (instructions : List Instruction) (position number : Nat) : Prop where
  created : number < (ups (instructions.take position)).length
  unspent : ¬ machine.SpentBefore store ctx instructions position number

/-- A slot is filled exactly if something was brought up under its number and
not consumed since. -/
theorem isSome_created?_iff (reached : machine.Reached store ctx instructions position run)
    {number : Nat} :
    (run.overlay.created? number).isSome = true
      ↔ machine.Stands store ctx instructions position number := by
  have length : (ups (instructions.take position)).length = run.overlay.slots.length := by
    rw [reached.ups_eq, List.length_map, reached.length_slots]
  constructor
  · intro present
    obtain ⟨substate, live⟩ := Option.isSome_iff_exists.mp present
    have created := reached.creations_of_created? live
    refine ⟨?_, fun spent => ?_⟩
    · rw [length, reached.length_slots]
      exact (List.getElem?_eq_some_iff.mp created).1
    · have gone := (gone_iff reached).mpr ((spentBefore_iff reached).mp spent)
      rw [gone.2] at live
      cases live
  · intro stands
    by_contra absent
    refine stands.unspent ((spentBefore_iff reached).mpr ((gone_iff reached).mp ⟨?_, ?_⟩))
    · rw [← length]
      exact stands.created
    · exact Option.not_isSome_iff_eq_none.mp absent

/-- What is there under a number is what was brought up under it. -/
theorem created?_eq_some_iff (reached : machine.Reached store ctx instructions position run)
    {number : Nat} {substate : CreatedSubstate P} :
    run.overlay.created? number = some substate
      ↔ machine.Stands store ctx instructions position number
          ∧ substate.BroughtUp machine.format instructions number := by
  constructor
  · intro live
    exact ⟨(isSome_created?_iff reached).mp (Option.isSome_of_eq_some live),
      reached.broughtUp (reached.creations_of_created? live)⟩
  · rintro ⟨stands, brought⟩
    obtain ⟨other, live⟩ :=
      Option.isSome_iff_exists.mp ((isSome_created?_iff reached).mpr stands)
    rw [live, brought.unique (reached.broughtUp (reached.creations_of_created? live))]

/-- Boot-up numbers last. Before any instruction that is reached, there is
something under a number exactly if more than so many substates were brought
up before, in all groups together, and the one under that number was not
consumed, by its number or by a scan. It is what the transaction brings up
there, by id, encoding and what that decodes to, whatever else was consumed
meanwhile. So a reference by number finds that substate or nothing, and one to
a child of it finds a child of that substate or nothing. As long as no more
substates are brought up than there are numbers, each has one. -/
theorem boot_up_numbers_last (reached : machine.Reached store ctx instructions position run) :
    (∀ number, (run.overlay.created? number).isSome = true
        ↔ machine.Stands store ctx instructions position number)
      ∧ (∀ number substate, run.overlay.created? number = some substate
          ↔ machine.Stands store ctx instructions position number
              ∧ substate.BroughtUp machine.format instructions number)
      ∧ (∀ (index : UInt32) found,
          run.overlay.look ⟨store, machine.format⟩ (.created index) = .ok found
            ↔ machine.Stands store ctx instructions position index.toNat
                ∧ ∃ substate : CreatedSubstate P,
                    substate.BroughtUp machine.format instructions index.toNat
                      ∧ found = ⟨substate.id, substate.object, some substate.encoding⟩)
      ∧ (∀ (index : UInt32) key found,
          run.overlay.look ⟨store, machine.format⟩ (.createdVirtual (.virtual (.created index) key))
              = .ok found
            ↔ machine.Stands store ctx instructions position index.toNat
                ∧ ¬ machine.ConsumedBefore store ctx instructions position
                    (.committed (.virtual (.created index) key))
                ∧ ∃ (parent : CreatedSubstate P) (object : P),
                    parent.BroughtUp machine.format instructions index.toNat
                      ∧ Overlay.Breeds ⟨store, machine.format⟩ parent.object key object
                      ∧ found = ⟨.virtual (.created index) key, object, none⟩)
      ∧ ((ups (instructions.take position)).length ≤ 0x100000000 →
          ∀ number, machine.Stands store ctx instructions position number →
            ∃ index : UInt32, index.toNat = number) := by
  refine ⟨fun number => isSome_created?_iff reached,
    fun number substate => created?_eq_some_iff reached, fun index found => ?_,
    fun index key found => ?_, fun few number stands => ?_⟩
  · rw [Overlay.look_created_iff]
    simp only [created?_eq_some_iff reached, and_assoc, exists_and_left]
  · rw [Overlay.look_createdVirtual_iff, mem_consumed_iff reached]
    simp only [created?_eq_some_iff reached, and_assoc, exists_and_left]
    exact and_left_comm
  · have hlt : number < UInt32.size := Nat.lt_of_lt_of_le stands.created few
    exact ⟨.ofNat number, UInt32.toNat_ofNat_of_lt' hlt⟩

open Token in
/-- Of three substates brought up, the first is pulled by a scan before the
third is brought up. The third is found under its number all the same, and the
first number is not given again. -/
theorem number_not_given_again :
    ∃ run, freeMachine.Reached holdingAndParent.toStore systemContext everyRemoval 11 run
      ∧ freeMachine.SpentBefore holdingAndParent.toStore systemContext everyRemoval 11 0
      ∧ run.overlay.look ⟨holdingAndParent.toStore, freeMachine.format⟩ (.created 2)
          = .ok ⟨.stored [7], .tokens 8 10, some [2, 8, 0, 0, 0, 0, 0, 0, 0, 10]⟩
      ∧ ∀ found, run.overlay.look ⟨holdingAndParent.toStore, freeMachine.format⟩ (.created 0)
          ≠ .ok found := by
  let ledger : Ledger Object := ⟨holdingAndParent.toStore, freeMachine.format⟩
  let start : Run Object Holding := ⟨.empty, .start, systemContext, .blank⟩
  let walked := freeMachine.steps ledger 0 (everyRemoval.take 11) start
  have walk : walked.1 = .ok () := by decide +kernel
  have reached :
      freeMachine.Reached holdingAndParent.toStore systemContext everyRemoval 11 walked.2 :=
    reached_of_walk (by decide) rfl walk
  obtain ⟨present, -, refers, -⟩ := boot_up_numbers_last reached
  have emptied : (walked.2.overlay.created? 0).isSome = false := by decide +kernel
  have filled : (walked.2.overlay.created? 2).isSome = true := by decide +kernel
  -- the scan has pulled the first, so its place is empty
  have down : ¬ freeMachine.Stands holdingAndParent.toStore systemContext everyRemoval 11 0 :=
    fun stands => Bool.eq_false_iff.mp emptied ((present 0).mpr stands)
  refine ⟨walked.2, reached, ?_, ?_, ?_⟩
  · by_contra unspent
    exact down ⟨by decide, unspent⟩
  · have third : CreatedSubstate.BroughtUp freeMachine.format everyRemoval 2
        ⟨.stored [7], .tokens 8 10, [2, 8, 0, 0, 0, 0, 0, 0, 0, 10]⟩ := ⟨rfl, by rfl⟩
    exact (refers 2 _).mpr ⟨(present 2).mp filled, _, third, rfl⟩
  · intro found look
    exact down ((refers 0 found).mp look).1

end Machine

end LedgerCore
