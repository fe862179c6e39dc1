/-
The substates that a list of instructions creates, in boot-up order, and how
a run keeps them. `creations` reads them off the instructions alone. Where a
run has been reached, its slots are as many as the creations before it, and
a slot that is not empty holds the creation of its number
(`Reached.creations_of_created?`); so what a boot-up number stands for is
settled by the instructions, and only whether it still stands for anything
is up to the run.
-/
import LedgerCore.Proofs.Machine.Record

namespace LedgerCore

variable {P R : Type}

/-- The substate that an instruction creates. -/
def Instruction.creation? (format : SubstateFormat P) : Instruction → Option (CreatedSubstate P)
  | up id encoding => (format.decodeWhole encoding).toOption.map (⟨id, ·, encoding⟩)
  | _ => none

/-- The substates that instructions create, in boot-up order. -/
def creations (format : SubstateFormat P) (instructions : List Instruction) :
    List (CreatedSubstate P) :=
  instructions.filterMap (Instruction.creation? format)

/-- An instruction that creates says what it creates, if that can be
decoded. -/
theorem Instruction.creation?_up {format : SubstateFormat P} {id : SubstateId} {encoding : Bytes}
    {object : P} (decoded : format.decodeWhole encoding = .ok object) :
    (up id encoding).creation? format = some ⟨id, object, encoding⟩ := by
  rw [creation?, decoded]
  rfl

/-- One more instruction adds its own creation. -/
theorem creations_take_succ (format : SubstateFormat P) {instructions : List Instruction}
    {position : Nat} {instruction : Instruction}
    (here : instructions[position]? = some instruction) :
    creations format (instructions.take (position + 1))
      = creations format (instructions.take position)
        ++ (instruction.creation? format).toList :=
  filterMap_take_succ (Instruction.creation? format) here

/-- The substate that the record of a creation is about. -/
def StateUpdate.creation (update : StateUpdate P) : CreatedSubstate P :=
  ⟨update.id, update.object, update.encoding.getD []⟩

namespace Machine

variable [StateObject P] [ReducerState R] {machine : Machine P R}

omit [ReducerState R] in
/-- The whole substate can be read off the instruction, given the format. -/
theorem readsCreations_creation (format : SubstateFormat P) :
    ReadsCreations format (Instruction.creation? format) StateUpdate.creation where
  up position decoded := Instruction.creation?_up decoded
  other {instruction} nothing := by
    cases instruction with
    | up id encoding => cases nothing
    | _ => rfl

namespace Reached

variable {store : CommittedStore} {ctx : Context} {instructions : List Instruction}
  {position : Nat} {run : Run P R}

/-- What a run has recorded as created is what its instructions create, in
order. -/
theorem creations_eq (reached : machine.Reached store ctx instructions position run) :
    (StateUpdate.births run.reduction.updates).map StateUpdate.creation
      = creations machine.format (instructions.take position) :=
  reached.births_map (readsCreations_creation machine.format)

theorem length_slots (reached : machine.Reached store ctx instructions position run) :
    run.overlay.slots.length = (creations machine.format (instructions.take position)).length := by
  rw [reached.mirrors.length_eq, ← reached.creations_eq, List.length_map]

/-- A live substate is the creation of its boot-up number. -/
theorem creations_of_created? (reached : machine.Reached store ctx instructions position run)
    {number : Nat} {substate : CreatedSubstate P}
    (live : run.overlay.created? number = some substate) :
    (creations machine.format (instructions.take position))[number]? = some substate := by
  obtain ⟨born, hborn⟩ := reached.mirrors.recorded live
  rw [← reached.creations_eq, List.getElem?_map, hborn]
  rfl

end Reached

end Machine

end LedgerCore
