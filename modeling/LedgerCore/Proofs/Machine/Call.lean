/-
A step in three parts. What an instruction demands before any procedure
runs (`demand`) looks at the format, the store and the run, not at the
rules. In the middle stands at most one procedure call. What follows a
call that succeeds (`conclude`) looks at nothing but what the call left.

Rules therefore enter a step at one place only, `Machine.reduce`, and its
gate is the same for every instruction and for the implicit call that
closes a group. Proofs that compare two runs, or that carry a quantity
through the reducer state, go by this file: `step_eq` once, then one fact
about `reduce` and one for each of the other two parts. A proof about steps
that succeed has the parts from `step_ok`, with all that their success implies.
-/
import LedgerCore.Machine

namespace LedgerCore.Machine

variable {P R : Type}

-- =========================================================== the three parts

/-- A procedure call an instruction asks for, and the run it starts from. -/
structure Call (P R : Type) where
  op : OpSignature
  input : Input P
  offers : List (Except ExecutionError (ScanEntry P))
  run : Run P R

/-- What an instruction comes to before any procedure runs. -/
inductive Demand (P R : Type) where
  | fails (cause : ExecutionError)
  | passes (after : Run P R)
  | signs
  | calls (call : Call P R)

/-- The key a call looks its procedure up by. -/
def Call.key [ReducerState R] (call : Call P R) : ProcedureKey :=
  ⟨reducerKind call.run.reduction.state, call.op⟩

variable [StateObject P] [ReducerState R]

/-- The call for a substate. -/
def Call.object (op : Op) (object : P) (run : Run P R) : Call P R :=
  ⟨.substate op (StateObject.tag object), .substate object, [], run⟩

/-- The call for an index scan, which is counted when it is opened. -/
def Call.scan (ledger : Ledger P) (op : Op) (index : SubstateIndex) (run : Run P R) : Call P R :=
  ⟨.substate op index.tag, .index index, run.overlay.scan ledger index,
    { run with journal := run.journal.countScan }⟩

/-- What an instruction demands. Created and consumed substates are in the
overlay and on record before their procedure is called. -/
def demand (ledger : Ledger P) (position : Nat) (instruction : Instruction) (run : Run P R) :
    Demand P R :=
  if run.reduction.mustClose ∧ instruction ≠ .close then .fails .missingExpectedClose
  else
    match instruction with
    | .syscall data => .calls ⟨.syscall, .call data, [], run⟩
    | .read target =>
        match run.overlay.look ledger target with
        | .error cause => .fails cause
        | .ok found => .calls (.object .read found.object run)
    | .readIndex index =>
        if ledger.format.knows index.tag then .calls (.scan ledger .readIndex index run)
        else .fails (.unknownSubstateType index.tag)
    | .downIndex index =>
        if ledger.format.knows index.tag then .calls (.scan ledger .downIndex index run)
        else .fails (.unknownSubstateType index.tag)
    | .up id encoding =>
        match ledger.format.decodeWhole encoding with
        | .error cause => .fails cause
        | .ok object =>
            .calls (.object .up object { run with
              overlay := run.overlay.create id object encoding
              reduction := run.reduction.record [.ofUp position id object encoding] })
    | .down target =>
        match run.overlay.take ledger target with
        | .error cause => .fails cause
        | .ok (found, overlay) =>
            .calls (.object .down found.object { run with
              overlay := overlay
              reduction := run.reduction.record [.ofDown position found] })
    | .close =>
        match run.reduction.state with
        | none => .passes { run with reduction := run.reduction.closeGroup }
        | some _ => .calls ⟨.close, .close, [], run⟩
    | .sig => .signs
    | .msg _ | .header .. => .passes run
    | .unknown opcode => .fails (.unknownOp opcode)

/-- What follows a call that succeeds: `kind` is that of the reducer state
before the call, `after` the run the call left. -/
def conclude (position : Nat) (instruction : Instruction) (kind : ReducerKind)
    (pulled : List (ScanEntry P)) (after : Run P R) : Step P R :=
  match instruction with
  | .read _ | .up .. | .down _ =>
      (.ok (), { after with reduction := after.reduction.expectClose })
  | .downIndex _ =>
      (.ok (), { after with
        overlay := after.overlay.consumeAll pulled
        reduction := after.reduction.record (pulled.map (.ofPull position)) })
  | .close =>
      if after.reduction.state.isSome then (.error (.unclosedGroup kind), after)
      else (.ok (), { after with reduction := after.reduction.closeGroup })
  | _ => (.ok (), after)

/-- Makes a call. -/
def perform (machine : Machine P R) (ledger : Ledger P) (call : Call P R) :
    Except ExecutionError (List (ScanEntry P)) × Run P R :=
  machine.reduce ledger call.op call.input call.offers call.run

/-- A call to a procedure, given what the gate answered. -/
def carryOut (procedure : Procedure P R) (ledger : Ledger P) (call : Call P R) :
    Except ExecutionError Unit × (Context × Journal) →
      Except ExecutionError (List (ScanEntry P)) × Run P R
  | (.error cause, ctx, journal) =>
      (.error cause, { call.run with ctx := ctx, journal := journal })
  | (.ok (), ctx, journal) =>
      let (result, after) := (procedure.body call.input call.run.reduction.state).run
        (call.run.overlay.resource ledger) ⟨call.offers, [], ctx, journal⟩
      let run := { call.run with ctx := after.ctx, journal := after.journal }
      match result with
      | .error cause => (.error cause, run)
      | .ok state =>
          (.ok after.pulled, { run with reduction := { run.reduction with state := state } })

/-- Answers a demand. -/
def answer (machine : Machine P R) (ledger : Ledger P) (position : Nat)
    (instruction : Instruction) (run : Run P R) : Demand P R → Step P R
  | .fails cause => (.error cause, run)
  | .passes after => (.ok (), after)
  | .signs => machine.countSig run
  | .calls call =>
      match machine.perform ledger call with
      | (.error cause, after) => (.error cause, after)
      | (.ok pulled, after) =>
          conclude position instruction (reducerKind call.run.reduction.state) pulled after

variable {machine : Machine P R} {ledger : Ledger P} {position : Nat}
  {instruction : Instruction} {run after : Run P R}

/-- A step is its demand, answered. -/
theorem step_eq (machine : Machine P R) (ledger : Ledger P) (position : Nat)
    (instruction : Instruction) (run : Run P R) :
    machine.step ledger position instruction run
      = machine.answer ledger position instruction run
          (demand ledger position instruction run) := by
  unfold step demand
  split
  · rfl
  · cases instruction with
    | syscall data => rfl
    | read target =>
        dsimp only
        cases look : run.overlay.look ledger target with
        | error cause => rfl
        | ok found => rfl
    | readIndex index =>
        dsimp only [reduceScan]
        split
        · rfl
        · rfl
    | downIndex index =>
        dsimp only [reduceScan]
        split
        · rfl
        · rfl
    | up id encoding =>
        dsimp only
        cases decoded : ledger.format.decodeWhole encoding with
        | error cause => rfl
        | ok object => rfl
    | down target =>
        dsimp only
        cases taken : run.overlay.take ledger target with
        | error cause => rfl
        | ok found => rfl
    | close =>
        dsimp only [reduceClose]
        cases held : run.reduction.state with
        | none => rfl
        -- the kind of the state is what the call had before it
        | some state =>
            dsimp only [answer, conclude]
            rw [held]
            rfl
    | sig => rfl
    | msg content => rfl
    | header version flags => rfl
    | unknown opcode => rfl

/-- A call finds its procedure, passes the gate and is carried out. -/
theorem perform_eq (machine : Machine P R) (ledger : Ledger P) (call : Call P R) :
    machine.perform ledger call
      = match machine.procedures.get ⟨reducerKind call.run.reduction.state, call.op⟩ with
        | .error cause => (.error cause, call.run)
        | .ok procedure =>
            carryOut procedure ledger call
              (machine.admit? procedure ⟨reducerKind call.run.reduction.state, call.op⟩ call.input
                (call.run.overlay.resource ledger) call.run.ctx call.run.journal) := by
  unfold perform reduce
  dsimp only
  cases machine.procedures.get ⟨reducerKind call.run.reduction.state, call.op⟩ with
  | error cause => rfl
  | ok procedure =>
      dsimp only
      generalize machine.admit? procedure _ _ _ _ _ = gated
      rcases gated with ⟨cause | ⟨⟩, ctx, journal⟩
      · -- refused at the gate
        rfl
      · rfl

-- ============================================================= inversions

/-- The calls an instruction can make, with what the run has become by then. -/
inductive Calls (ledger : Ledger P) (position : Nat) (run : Run P R) :
    Instruction → Call P R → Prop
  | syscall (data : Bytes) :
      Calls ledger position run (.syscall data) ⟨.syscall, .call data, [], run⟩
  | read {target : SubstateRef} {found : Found P}
      (look : run.overlay.look ledger target = .ok found) :
      Calls ledger position run (.read target) (.object .read found.object run)
  | readIndex (index : SubstateIndex) :
      Calls ledger position run (.readIndex index) (.scan ledger .readIndex index run)
  | downIndex (index : SubstateIndex) :
      Calls ledger position run (.downIndex index) (.scan ledger .downIndex index run)
  | up {id : SubstateId} {encoding : Bytes} {object : P}
      (decoded : ledger.format.decodeWhole encoding = .ok object) :
      Calls ledger position run (.up id encoding) (.object .up object { run with
        overlay := run.overlay.create id object encoding
        reduction := run.reduction.record [.ofUp position id object encoding] })
  | down {target : SubstateRef} {found : Found P} {overlay : Overlay P}
      (taken : run.overlay.take ledger target = .ok (found, overlay)) :
      Calls ledger position run (.down target) (.object .down found.object { run with
        overlay := overlay
        reduction := run.reduction.record [.ofDown position found] })
  | close (held : run.reduction.state.isSome) :
      Calls ledger position run .close ⟨.close, .close, [], run⟩

/-- What an instruction can demand. -/
inductive Demands (ledger : Ledger P) (position : Nat) (run : Run P R) :
    Instruction → Demand P R → Prop
  | fails (instruction : Instruction) (cause : ExecutionError) :
      Demands ledger position run instruction (.fails cause)
  | closes (void : run.reduction.state = none) :
      Demands ledger position run .close
        (.passes { run with reduction := run.reduction.closeGroup })
  | passes (instruction : Instruction) : Demands ledger position run instruction (.passes run)
  | signs : Demands ledger position run .sig .signs
  | calls {instruction : Instruction} {call : Call P R}
      (made : Calls ledger position run instruction call) :
      Demands ledger position run instruction (.calls call)

omit [ReducerState R] in
/-- What an instruction demands is one of the things it can demand. -/
theorem demands (ledger : Ledger P) (position : Nat) (instruction : Instruction) (run : Run P R) :
    Demands ledger position run instruction (demand ledger position instruction run) := by
  unfold demand
  split
  · exact .fails _ _
  · cases instruction with
    | syscall data => exact .calls (.syscall data)
    | read target =>
        dsimp only
        cases look : run.overlay.look ledger target with
        | error cause => exact .fails _ _
        | ok found => exact .calls (.read look)
    | readIndex index =>
        dsimp only
        split
        · exact .calls (.readIndex index)
        · exact .fails _ _
    | downIndex index =>
        dsimp only
        split
        · exact .calls (.downIndex index)
        · exact .fails _ _
    | up id encoding =>
        dsimp only
        cases decoded : ledger.format.decodeWhole encoding with
        | error cause => exact .fails _ _
        | ok object => exact .calls (.up decoded)
    | down target =>
        dsimp only
        cases taken : run.overlay.take ledger target with
        | error cause => exact .fails _ _
        | ok found => exact .calls (.down taken)
    | close =>
        dsimp only
        cases held : run.reduction.state with
        | none => exact .closes held
        | some state => exact .calls (.close (by rw [held]; rfl))
    | sig => exact .signs
    | msg content => exact .passes _
    | header version flags => exact .passes _
    | unknown opcode => exact .fails _ _

/-- How a step succeeds, by what its instruction demands. -/
inductive Succeeds (machine : Machine P R) (ledger : Ledger P) (position : Nat) (run : Run P R) :
    Instruction → Demand P R → Run P R → Prop
  | closes (void : run.reduction.state = none) :
      Succeeds machine ledger position run .close
        (.passes { run with reduction := run.reduction.closeGroup })
        { run with reduction := run.reduction.closeGroup }
  | passes (instruction : Instruction) :
      Succeeds machine ledger position run instruction (.passes run) run
  | signs {after : Run P R} (counted : machine.countSig run = (.ok (), after)) :
      Succeeds machine ledger position run .sig .signs after
  | calls {instruction : Instruction} {call : Call P R} {pulled : List (ScanEntry P)}
      {left after : Run P R} (made : Calls ledger position run instruction call)
      (performed : machine.perform ledger call = (.ok pulled, left))
      (concluded : conclude position instruction (reducerKind call.run.reduction.state) pulled left
        = (.ok (), after)) :
      Succeeds machine ledger position run instruction (.calls call) after

/-- A step that succeeds has its demand met. -/
theorem step_ok (h : machine.step ledger position instruction run = (.ok (), after)) :
    machine.Succeeds ledger position run instruction (demand ledger position instruction run)
      after := by
  rw [step_eq] at h
  have demanded := demands ledger position instruction run
  generalize demand ledger position instruction run = demand at demanded h
  cases demanded with
  | fails instruction cause => cases h
  | closes void =>
      cases h
      exact .closes void
  | passes instruction =>
      cases h
      exact .passes instruction
  | signs => exact .signs h
  | calls made =>
      dsimp only [answer] at h
      split at h
      · cases h
      · next pulled left performed => exact .calls made performed h

omit [ReducerState R] in
/-- Nothing acts on the context before a procedure is called. -/
theorem Calls.ctx {call : Call P R} (made : Calls ledger position run instruction call) :
    call.run.ctx = run.ctx := by
  cases made <;> rfl

omit [ReducerState R] in
/-- Nothing acts on the reducer state before a procedure is called. -/
theorem Calls.state {call : Call P R} (made : Calls ledger position run instruction call) :
    call.run.reduction.state = run.reduction.state := by
  cases made <;> rfl

omit [ReducerState R] in
/-- Nothing acts on the context after a procedure was called. -/
theorem conclude_ctx (position : Nat) (instruction : Instruction) (kind : ReducerKind)
    (pulled : List (ScanEntry P)) (after : Run P R) :
    (conclude position instruction kind pulled after).2.ctx = after.ctx := by
  cases instruction with
  | close =>
      dsimp only [conclude]
      split
      · rfl
      · rfl
  | _ => rfl

omit [StateObject P] [ReducerState R] in
/-- What the gate lets through has passed the permission check. -/
theorem checkPermission_of_admitted {procedure : Procedure P R} {key : ProcedureKey}
    {input : Input P} {resource : ResourceAddr → Except ExecutionError ResourceDefinition}
    {ctx admitted : Context} {journal journal' : Journal}
    (h : machine.admit? procedure key input resource ctx journal = (.ok (), admitted, journal')) :
    ctx.checkPermission (procedure.requiredLevel input) = .ok () := by
  unfold admit? at h
  dsimp only at h
  split at h
  · cases h
  · assumption

/-- A call that succeeds found its procedure and passed the gate, and left
what the body made of the context and of the reducer state. -/
theorem perform_admitted {call : Call P R} {pulled : List (ScanEntry P)}
    (h : machine.perform ledger call = (.ok pulled, after)) :
    ∃ procedure admitted noted next final,
      machine.procedures.get ⟨reducerKind call.run.reduction.state, call.op⟩ = .ok procedure
        ∧ machine.admit? procedure ⟨reducerKind call.run.reduction.state, call.op⟩ call.input
            (call.run.overlay.resource ledger) call.run.ctx call.run.journal
          = (.ok (), admitted, noted)
        ∧ (procedure.body call.input call.run.reduction.state).run
            (call.run.overlay.resource ledger) ⟨call.offers, [], admitted, noted⟩
          = (.ok next, final)
        ∧ pulled = final.pulled
        ∧ after = ⟨call.run.overlay, { call.run.reduction with state := next }, final.ctx,
            final.journal⟩ := by
  rw [perform_eq] at h
  split at h
  · cases h
  · next procedure found =>
      rcases admitted : machine.admit? procedure _ _ _ _ _ with ⟨cause | ⟨⟩, ctx, journal⟩
      · rw [admitted] at h
        cases h
      · rw [admitted] at h
        dsimp only [carryOut] at h
        split at h
        · cases h
        · next next ended =>
            cases h
            refine ⟨procedure, ctx, journal, next, _, found, admitted, ?_, rfl, rfl⟩
            rw [← ended]

/-- A call that succeeds found its procedure, was permitted, and left what
the body made of the reducer state. -/
theorem perform_ok {call : Call P R} {pulled : List (ScanEntry P)}
    (h : machine.perform ledger call = (.ok pulled, after)) :
    ∃ procedure,
      machine.procedures.get ⟨reducerKind call.run.reduction.state, call.op⟩ = .ok procedure
        ∧ call.run.ctx.checkPermission (procedure.requiredLevel call.input) = .ok ()
        ∧ ∃ ctx journal next final,
            (procedure.body call.input call.run.reduction.state).run
                (call.run.overlay.resource ledger) ⟨call.offers, [], ctx, journal⟩
              = (.ok next, final)
            ∧ pulled = final.pulled
            ∧ after.overlay = call.run.overlay
            ∧ after.reduction = { call.run.reduction with state := next } := by
  obtain ⟨procedure, admitted, noted, next, final, found, gate, ran, rfl, rfl⟩ :=
    perform_admitted h
  exact ⟨procedure, found, checkPermission_of_admitted gate, admitted, noted, next, final, ran,
    rfl, rfl, rfl⟩

end LedgerCore.Machine
