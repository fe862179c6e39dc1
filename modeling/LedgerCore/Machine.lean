/-
The machine: verifies a transaction against a ledger's rules. It walks the
instructions in order, resolves each substate they refer to, hands it to
the procedure for the current reducer state, and records the updates of
each group. Committed state is only read; what the transaction does to it
is kept in an overlay.

A run stops at its first failure and reports the position, the cause, and
the reducer state it was left with. After the last instruction no group may
be open and the context's books must settle.
-/
import LedgerCore.Procedure

namespace LedgerCore

-- ================================================================ updates

/-- A substate created or consumed by a transaction. -/
structure StateUpdate (P : Type) where
  /-- Whether it was created; otherwise it was consumed. -/
  created : Bool
  /-- Position of the instruction that did it. -/
  position : Nat
  id : SubstateId
  tag : TypeTag
  object : P
  /-- Absent for virtual substates. -/
  encoding : Option Bytes
deriving DecidableEq

namespace StateUpdate

variable {P : Type} [StateObject P]

/-- The record of a creation. -/
def ofUp (position : Nat) (id : SubstateId) (object : P) (encoding : Bytes) : StateUpdate P :=
  ⟨true, position, id, StateObject.tag object, object, some encoding⟩

/-- The record of a consumption. -/
def ofDown (position : Nat) (found : Found P) : StateUpdate P :=
  ⟨false, position, found.id, StateObject.tag found.object, found.object, found.encoding⟩

/-- The record of a substate pulled from a consuming scan. -/
def ofPull (position : Nat) (entry : ScanEntry P) : StateUpdate P :=
  ofDown position ⟨entry.id, entry.object, some entry.encoding⟩

/-- The operation an update stands for. -/
def op {P : Type} (update : StateUpdate P) : Op := if update.created then .up else .down

end StateUpdate

-- ============================================================== reduction

/-- How far the groups of a transaction are reduced. -/
structure Reduction (P R : Type) where
  /-- What the procedures of the current group have accumulated. -/
  state : Option R
  /-- Whether the current group is reduced and only waits to be closed. -/
  mustClose : Bool
  /-- Updates of the current group. -/
  group : List (StateUpdate P)
  /-- Updates of the groups closed so far. -/
  groups : List (List (StateUpdate P))

namespace Reduction

variable {P R : Type}

/-- Before the first instruction. -/
def start : Reduction P R := ⟨none, false, [], []⟩

/-- Whether a group has begun that is not closed. -/
def isOpen (reduction : Reduction P R) : Bool :=
  reduction.state.isSome || !reduction.group.isEmpty

/-- Adds updates to the current group. -/
def record (reduction : Reduction P R) (updates : List (StateUpdate P)) : Reduction P R :=
  { reduction with group := reduction.group ++ updates }

/-- Ends the current group. -/
def closeGroup (reduction : Reduction P R) : Reduction P R :=
  { reduction with
    mustClose := false, group := [], groups := reduction.groups ++ [reduction.group] }

/-- After a substate was reduced, a void state asks for a close. -/
def expectClose (reduction : Reduction P R) : Reduction P R :=
  { reduction with mustClose := reduction.state.isNone }

end Reduction

-- ================================================================= verdicts

/-- Why and where a transaction is rejected. -/
structure Rejection (R : Type) where
  /-- Position of the failing instruction; of the last one for failures that
  arise after it. -/
  index : Nat
  state : Option R
  cause : ExecutionError
deriving DecidableEq

namespace Rejection

variable {R : Type}

/-- The wording of a rejection. -/
def message (rejection : Rejection R) : String :=
  "instruction " ++ rejection.index.repr ++ " rejected: " ++ rejection.cause.message

/-- The instruction a rejection points at, if there is one. -/
def failedInstruction (rejection : Rejection R) (instructions : List Instruction) :
    Option Instruction :=
  instructions[rejection.index]?

end Rejection

/-- What comes of a run. -/
structure Verdict (P R : Type) where
  /-- The updates of each group, or the rejection. -/
  outcome : Except (Rejection R) (List (List (StateUpdate P)))
  /-- The context after the run. -/
  ctx : Context
  journal : Journal

-- ================================================================ machine

/-- A ledger's rules: its procedures, its encodings and its fee policy. -/
structure Machine (P R : Type) where
  procedures : Procedures P R
  format : SubstateFormat P
  meter : Meter

/-- Everything a run changes. -/
structure Run (P R : Type) where
  overlay : Overlay P
  reduction : Reduction P R
  ctx : Context
  journal : Journal

namespace Machine

variable {P R : Type} [StateObject P] [ReducerState R]

/-- A step's result and the run after it. -/
abbrev Step (P R : Type) := Except ExecutionError Unit × Run P R

/-- The meter's hook for a procedure of that level; system procedures are
not metered. -/
def meterHook (meter : Meter) (required : PermissionLevel) (key : ProcedureKey) : MeterHook :=
  match required with
  | .user => meter.onUser key
  | .superUser => meter.onSuperUser key
  | .system => .nothing

/-- What stands before a procedure's body: the permission check and, unless
the system itself runs, the meter and the authorizer. -/
def admit? (machine : Machine P R) (procedure : Procedure P R) (key : ProcedureKey)
    (input : Input P) (resource : ResourceAddr → Except ExecutionError ResourceDefinition)
    (ctx : Context) (journal : Journal) : Except ExecutionError Unit × (Context × Journal) :=
  let required := procedure.requiredLevel input
  match ctx.checkPermission required with
  | .error cause => (.error cause, ctx, journal)
  | .ok () =>
      if ctx.level = .system then (.ok (), ctx, journal)
      else
        match (meterHook machine.meter required key).run ctx journal with
        | (.error cause, ctx, journal) => (.error (.meter cause), ctx, journal)
        | (.ok (), ctx, journal) =>
            if ctx.skipAuthorization then (.ok (), ctx, journal)
            else
              match (procedure.authorize input).run resource ctx journal with
              | (.error cause, journal) => (.error (.unauthorized cause), ctx, journal)
              | (.ok (), journal) => (.ok (), ctx, journal)

/-- Folds an input into the reducer state by the procedure registered for
the two, and hands over what the procedure pulled from its scan. A failure
leaves the reducer state as it was. -/
def reduce (machine : Machine P R) (ledger : Ledger P) (op : OpSignature) (input : Input P)
    (offers : List (Except ExecutionError (ScanEntry P))) (run : Run P R) :
    Except ExecutionError (List (ScanEntry P)) × Run P R :=
  let key : ProcedureKey := ⟨reducerKind run.reduction.state, op⟩
  match machine.procedures.get key with
  | .error cause => (.error cause, run)
  | .ok procedure =>
      let resource := run.overlay.resource ledger
      match machine.admit? procedure key input resource run.ctx run.journal with
      | (.error cause, ctx, journal) => (.error cause, { run with ctx := ctx, journal := journal })
      | (.ok (), ctx, journal) =>
          let (result, after) :=
            (procedure.body input run.reduction.state).run resource ⟨offers, [], ctx, journal⟩
          let run := { run with ctx := after.ctx, journal := after.journal }
          match result with
          | .error cause => (.error cause, run)
          | .ok state =>
              (.ok after.pulled, { run with reduction := { run.reduction with state := state } })

/-- Reduces a substate; a void result asks for a close. -/
def reduceObject (machine : Machine P R) (ledger : Ledger P) (op : Op) (object : P)
    (run : Run P R) : Step P R :=
  match machine.reduce ledger (.substate op (StateObject.tag object)) (.substate object) [] run with
  | (.error cause, run) => (.error cause, run)
  | (.ok _, run) => (.ok (), { run with reduction := run.reduction.expectClose })

/-- Reduces an index scan. When it consumes, what the procedure pulled is
consumed once the procedure has returned. -/
def reduceScan (machine : Machine P R) (ledger : Ledger P) (position : Nat)
    (index : SubstateIndex) (consuming : Bool) (run : Run P R) : Step P R :=
  if ledger.format.knows index.tag then
    let op := if consuming then Op.downIndex else Op.readIndex
    let offers := run.overlay.scan ledger index
    let run := { run with journal := run.journal.countScan }
    match machine.reduce ledger (.substate op index.tag) (.index index) offers run with
    | (.error cause, run) => (.error cause, run)
    | (.ok pulled, run) =>
        if consuming then
          (.ok (), { run with
            overlay := run.overlay.consumeAll pulled
            reduction := run.reduction.record (pulled.map (.ofPull position)) })
        else (.ok (), run)
  else (.error (.unknownSubstateType index.tag), run)

/-- Closes the current group, once a reducer state that remains has been
reduced to none. -/
def reduceClose (machine : Machine P R) (ledger : Ledger P) (run : Run P R) : Step P R :=
  match run.reduction.state with
  | none => (.ok (), { run with reduction := run.reduction.closeGroup })
  | some state =>
      match machine.reduce ledger .close .close [] run with
      | (.error cause, run) => (.error cause, run)
      | (.ok _, run) =>
          if run.reduction.state.isSome then
            (.error (.unclosedGroup (ReducerState.kind state)), run)
          else (.ok (), { run with reduction := run.reduction.closeGroup })

/-- Meters and counts a signature; the system's own are free. -/
def countSig (machine : Machine P R) (run : Run P R) : Step P R :=
  if run.ctx.level = .system then (.ok (), run)
  else
    match machine.meter.onSig.run run.ctx run.journal with
    | (.error cause, ctx, journal) =>
        (.error (.meter cause), { run with ctx := ctx, journal := journal })
    | (.ok (), ctx, journal) =>
        match ctx.spendSig with
        | (result, ctx) => (result, { run with ctx := ctx, journal := journal })

/-- Applies one instruction. -/
def step (machine : Machine P R) (ledger : Ledger P) (position : Nat)
    (instruction : Instruction) (run : Run P R) : Step P R :=
  if run.reduction.mustClose ∧ instruction ≠ .close then (.error .missingExpectedClose, run)
  else
    match instruction with
    | .syscall data =>
        match machine.reduce ledger .syscall (.call data) [] run with
        | (.error cause, run) => (.error cause, run)
        | (.ok _, run) => (.ok (), run)
    | .read target =>
        match run.overlay.look ledger target with
        | .error cause => (.error cause, run)
        | .ok found => machine.reduceObject ledger .read found.object run
    | .readIndex index => machine.reduceScan ledger position index false run
    | .downIndex index => machine.reduceScan ledger position index true run
    | .up id encoding =>
        match ledger.format.decodeWhole encoding with
        | .error cause => (.error cause, run)
        | .ok object =>
            machine.reduceObject ledger .up object { run with
              overlay := run.overlay.create id object encoding
              reduction := run.reduction.record [.ofUp position id object encoding] }
    | .down target =>
        match run.overlay.take ledger target with
        | .error cause => (.error cause, run)
        | .ok (found, overlay) =>
            machine.reduceObject ledger .down found.object { run with
              overlay := overlay
              reduction := run.reduction.record [.ofDown position found] }
    | .close => machine.reduceClose ledger run
    | .sig => machine.countSig run
    | .msg _ | .header .. => (.ok (), run)
    | .unknown opcode => (.error (.unknownOp opcode), run)

/-- Applies instructions in order, the first at the given position, up to
the first failure, which is answered with its position. -/
def steps (machine : Machine P R) (ledger : Ledger P) :
    (position : Nat) → List Instruction → Run P R →
      Except (Nat × ExecutionError) Unit × Run P R
  | _, [], run => (.ok (), run)
  | position, instruction :: rest, run =>
      match machine.step ledger position instruction run with
      | (.error cause, run) => (.error (position, cause), run)
      | (.ok (), run) => machine.steps ledger (position + 1) rest run

/-- Verifies a transaction: its instructions, that no group is left open,
and that the context settles. -/
def verify (machine : Machine P R) (store : CommittedStore) (ctx : Context)
    (instructions : List Instruction) : Verdict P R :=
  let last := instructions.length - 1
  match machine.meter.onStart.run ctx .blank with
  | (.error cause, ctx, journal) => ⟨.error ⟨0, none, .meter cause⟩, ctx, journal⟩
  | (.ok (), ctx, journal) =>
      match machine.steps ⟨store, machine.format⟩ 0 instructions ⟨.empty, .start, ctx, journal⟩ with
      | (.error (position, cause), run) =>
          ⟨.error ⟨position, run.reduction.state, cause⟩, run.ctx, run.journal⟩
      | (.ok (), run) =>
          if run.reduction.isOpen then
            ⟨.error ⟨last, run.reduction.state, .unterminatedGroup⟩, run.ctx, run.journal⟩
          else
            match run.ctx.settle with
            | (.error cause, ctx) => ⟨.error ⟨last, none, cause⟩, ctx, run.journal⟩
            | (.ok (), ctx) => ⟨.ok run.reduction.groups, ctx, run.journal⟩

-- =================================================================== laws

/-- Applying a list is applying its first part, then its second from where
the first left off. -/
theorem steps_append (machine : Machine P R) (ledger : Ledger P) (position : Nat)
    (first second : List Instruction) (run : Run P R) :
    machine.steps ledger position (first ++ second) run
      = match machine.steps ledger position first run with
        | (.error failure, run) => (.error failure, run)
        | (.ok (), run) => machine.steps ledger (position + first.length) second run := by
  induction first generalizing position run with
  | nil => simp [steps]
  | cons instruction rest ih =>
      simp only [List.cons_append, steps, List.length_cons]
      split
      · rfl
      · next run' h => rw [ih, Nat.add_assoc, Nat.add_comm 1]

end Machine

end LedgerCore
