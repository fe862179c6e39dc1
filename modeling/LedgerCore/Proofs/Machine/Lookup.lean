/-
Resource lookups see the latest definition. The overlay keeps the
definitions that the transaction brought into being in a list beside its
slots, filled when a substate is created and never touched again; what a
lookup is told is read off that list, not off the live substates.

# The invariant

`Reached.definitions` says what the list is: the definitions carried by the
creations so far, the latest first. Consumption leaves it alone, whether by
reference or by a scan, so a definition is in force until another one for
the same address is created, also when the substate that carries it is
gone. A creation is in the list before its own procedure is called
(`Calls.definitions`), so that call sees it already.

`definitionAfter` is the reading of a list of instructions that this comes
to, and says nothing of overlays: the latest creation decides, and only
where there is none does committed state.
-/
import LedgerCore.Proofs.Machine.Closing
import LedgerCore.Proofs.Machine.Created
import LedgerCore.Proofs.Machine.Heard

namespace LedgerCore

variable {P R : Type} [StateObject P]

-- ============================================================ by instructions

/-- The resource definition that an instruction brings into being. -/
def Instruction.definition? (format : SubstateFormat P) (instruction : Instruction) :
    Option ResourceDefinition :=
  (instruction.creation? format).bind fun substate => StateObject.definition? substate.object

/-- The resource definitions that instructions bring into being, in order. -/
def createdDefinitions (format : SubstateFormat P) (instructions : List Instruction) :
    List ResourceDefinition :=
  (creations format instructions).filterMap fun substate => StateObject.definition? substate.object

/-- The definition committed under an address. -/
def Ledger.definition (ledger : Ledger P) (addr : ResourceAddr) :
    Except ExecutionError ResourceDefinition :=
  match ledger.store.resource? addr with
  | none => .error (.notAResource addr)
  | some encoding =>
      match ledger.format.decodeStored encoding with
      | .error cause => .error cause
      | .ok object =>
          match StateObject.definition? object with
          | none => .error (.notAResource addr)
          | some definition => .ok definition

/-- The definition in force after some instructions: the latest one created
for the address, or else the committed one. -/
def definitionAfter (ledger : Ledger P) (instructions : List Instruction) (addr : ResourceAddr) :
    Except ExecutionError ResourceDefinition :=
  match ((createdDefinitions ledger.format instructions).filter (·.addr = addr)).getLast? with
  | some definition => .ok definition
  | none => ledger.definition addr

/-- One more instruction puts the definition it creates, if any, before the
earlier ones. -/
theorem reverse_createdDefinitions (format : SubstateFormat P) {instructions : List Instruction}
    {position : Nat} {instruction : Instruction}
    (here : instructions[position]? = some instruction) :
    (createdDefinitions format (instructions.take (position + 1))).reverse
      = (instruction.definition? format).toList
        ++ (createdDefinitions format (instructions.take position)).reverse := by
  rw [createdDefinitions, creations_take_succ format here, List.filterMap_append,
    List.reverse_append]
  refine congrArg (· ++ _) ?_
  rw [Instruction.definition?]
  cases instruction.creation? format with
  | none => rfl
  | some substate =>
      cases carried : StateObject.definition? substate.object <;> simp [carried]

/-- What an instruction defines is what the object it creates defines. -/
theorem Instruction.definition?_up {format : SubstateFormat P} {id : SubstateId}
    {encoding : Bytes} {object : P} (decoded : format.decodeWhole encoding = .ok object) :
    (up id encoding).definition? format = StateObject.definition? object := by
  rw [definition?, creation?_up decoded]
  rfl

-- ================================================================ by overlays

namespace Overlay

omit [StateObject P] in
@[simp] theorem definitions_consume (overlay : Overlay P) (source : ScanSource) :
    (overlay.consume source).definitions = overlay.definitions := by
  cases source <;> rfl

omit [StateObject P] in
@[simp] theorem definitions_without (overlay : Overlay P) (target : SubstateRef) :
    (overlay.without target).definitions = overlay.definitions := by
  rw [without_eq_consume, definitions_consume]

omit [StateObject P] in
theorem definitions_foldl (overlay : Overlay P) (sources : List ScanSource) :
    (sources.foldl Overlay.consume overlay).definitions = overlay.definitions := by
  induction sources generalizing overlay with
  | nil => rfl
  | cons source rest ih => rw [List.foldl_cons, ih, definitions_consume]

/-- Where nothing was created for an address, committed state answers. -/
theorem resource_of_find?_eq_none {ledger : Ledger P} {overlay : Overlay P} {addr : ResourceAddr}
    (h : (overlay.definitions.find? fun definition => definition.addr == addr) = none) :
    overlay.resource ledger addr = ledger.definition addr := by
  rw [resource, h, Ledger.definition]
  cases ledger.store.resource? addr with
  | none => rfl
  | some encoding =>
      cases decoded : ledger.format.decodeStored encoding with
      | error cause => simp only [decoded, bind, Except.bind]
      | ok object =>
          simp only [decoded, bind, Except.bind]
          cases StateObject.definition? object with
          | none => rfl
          | some definition => rfl

/-- A list of definitions, the latest first, answers with the latest. -/
theorem resource_eq {ledger : Ledger P} {overlay : Overlay P} {instructions : List Instruction}
    (h : overlay.definitions = (createdDefinitions ledger.format instructions).reverse)
    (addr : ResourceAddr) :
    overlay.resource ledger addr = definitionAfter ledger instructions addr := by
  have latest : ((createdDefinitions ledger.format instructions).filter (·.addr = addr)).getLast?
      = overlay.definitions.find? fun definition => definition.addr == addr := by
    rw [h, ← List.head?_filter, List.filter_reverse, List.head?_reverse]
    rfl
  rw [definitionAfter, latest]
  cases found : overlay.definitions.find? fun definition => definition.addr == addr with
  | none => exact resource_of_find?_eq_none found
  | some definition => rw [resource, found]

end Overlay

namespace Machine

variable [ReducerState R] {machine : Machine P R} {ledger : Ledger P} {position : Nat}
  {instruction : Instruction} {run after : Run P R}

-- ================================================================ over a run

/-- A step that succeeds adds the definition its instruction creates, and
drops none. -/
theorem definitions_of_step
    (h : machine.step ledger position instruction run = (.ok (), after)) :
    after.overlay.definitions
      = (instruction.definition? ledger.format).toList ++ run.overlay.definitions := by
  obtain ⟨updates, overlay, applies, hoverlay, -⟩ := applies_of_step h
  rw [hoverlay]
  cases applies with
  | up decoded =>
      rw [Instruction.definition?_up decoded]
      rfl
  | down look => exact Overlay.definitions_without _ _
  | downIndex known =>
      rw [Overlay.consumeAll_eq_foldl]
      exact Overlay.definitions_foldl _ _
  | _ => rfl

omit [ReducerState R] in
/-- A call finds the definition that its own instruction creates. -/
theorem Calls.definitions {call : Call P R}
    (made : Calls ledger position run instruction call) :
    call.run.overlay.definitions
      = (instruction.definition? ledger.format).toList ++ run.overlay.definitions := by
  cases made with
  | up decoded =>
      rw [Instruction.definition?_up decoded]
      rfl
  | down taken =>
      obtain ⟨-, rfl⟩ := Overlay.take_ok taken
      exact Overlay.definitions_without _ _
  | _ => rfl

variable {store : CommittedStore} {ctx : Context} {instructions : List Instruction}

/-- The definitions in the overlay are those created so far, the latest
first. -/
theorem Reached.definitions (reached : machine.Reached store ctx instructions position run) :
    run.overlay.definitions
      = (createdDefinitions machine.format (instructions.take position)).reverse := by
  induction reached with
  | start hook => rfl
  | @step position instruction run after reached here applied ih =>
      rw [definitions_of_step applied, ih, reverse_createdDefinitions machine.format here]

/-- Whatever call an instruction leads to, a lookup on it is told the
definition that the latest creation up to and with this instruction carries
for the address, be the substate consumed by then or not. Where there is no
such creation it is told the committed definition, or why there is none. -/
theorem lookups_see_latest_definition {call : Call P R}
    (reached : machine.Reached store ctx instructions position run)
    (here : instructions[position]? = some instruction)
    (made : Calls ⟨store, machine.format⟩ position run instruction call) :
    (∀ addr, call.run.overlay.resource ⟨store, machine.format⟩ addr
        = definitionAfter ⟨store, machine.format⟩ (instructions.take (position + 1)) addr)
      ∧ ∀ lookup ∈ machine.lookups ⟨store, machine.format⟩ call,
          lookup.2 = definitionAfter ⟨store, machine.format⟩ (instructions.take (position + 1))
            lookup.1 := by
  have current : call.run.overlay.definitions
      = (createdDefinitions machine.format (instructions.take (position + 1))).reverse := by
    rw [made.definitions, reached.definitions, reverse_createdDefinitions machine.format here]
  refine ⟨Overlay.resource_eq current, fun lookup looked => ?_⟩
  rw [lookups_answered machine _ call lookup looked]
  exact Overlay.resource_eq current lookup.1

end Machine

namespace Token

/-- Anyone makes system calls who owns the resource. -/
def ownersOnly : Rule :=
  { anyone .void .syscall [.syscall, .clear] with checks := some [.resourceOwner ⟨[0xaa]⟩] }

/-- The token ledger where system calls are the resource owner's. -/
def ownersMachine : Machine Object Holding :=
  ⟨Rule.table (baseRules ++ [ownersOnly]), format, .free⟩

/-- The resource once it has an owner. -/
def ownedResource : ResourceDefinition := ⟨⟨[0xaa]⟩, false, some ⟨[7]⟩⟩

/-- Creates a resource without an owner and again with one, consumes what was
created last, and looks the resource up by a system call. -/
def ownAndSpend : List Instruction := [
  .up (.stored [5]) [3, 0, 1, 0xaa], .close,
  .up (.stored [6]) [3, 2, 1, 0xaa, 1, 7], .close,
  .down (.created 1), .close,
  .syscall [1, 0xaa]]

end Token

namespace Machine

open Token

/-- Authorizer and body of the system call both find the definition with the
owner, though nothing that carries it is left. -/
theorem spent_definition_in_force :
    ∃ run call, ownersMachine.Reached oneHolding.toStore userContext ownAndSpend 6 run
      ∧ run.overlay.created? 1 = none
      ∧ Calls ⟨oneHolding.toStore, ownersMachine.format⟩ 6 run (.syscall [1, 0xaa]) call
      ∧ ownersMachine.lookups ⟨oneHolding.toStore, ownersMachine.format⟩ call
        = [(⟨[0xaa]⟩, .ok ownedResource), (⟨[0xaa]⟩, .ok ownedResource)]
      ∧ definitionAfter ⟨oneHolding.toStore, ownersMachine.format⟩ ownAndSpend ⟨[0xaa]⟩
        = .ok ownedResource := by
  let ledger : Ledger Object := ⟨oneHolding.toStore, ownersMachine.format⟩
  let walked := ownersMachine.steps ledger 0 (ownAndSpend.take 6) untouched
  let call : Call Object Holding := ⟨.syscall, .call [1, 0xaa], [], walked.2⟩
  have accepted : walked.1 = .ok () := by decide +kernel
  have spent : walked.2.overlay.created? 1 = none := by decide +kernel
  have looked : ownersMachine.lookups ledger call
      = [(⟨[0xaa]⟩, .ok ownedResource), (⟨[0xaa]⟩, .ok ownedResource)] := by
    decide +kernel
  have reached : ownersMachine.Reached oneHolding.toStore userContext ownAndSpend 6 walked.2 :=
    reached_of_walk (by decide) rfl accepted
  have made : Calls ledger 6 walked.2 (.syscall [1, 0xaa]) call := .syscall [1, 0xaa]
  obtain ⟨-, told⟩ := lookups_see_latest_definition reached rfl made
  refine ⟨walked.2, call, reached, spent, made, looked, ?_⟩
  exact (told (⟨[0xaa]⟩, .ok ownedResource) (by rw [looked]; exact List.mem_cons_self)).symm

end Machine

end LedgerCore
