/-
Procedures: the ledger's rules. A procedure is looked up by the kind of the
current reducer state and the operation applied. It says which permission
level its input needs, may refuse the caller, and folds its input into the
next reducer state; having none left means the group is reduced.

Authorizers and bodies are programs. An authorizer may look at the context
and look up resources; a body may also operate on the context and, when its
input is an index scan, pull substates from the scan one at a time. What is
never pulled is not touched.
-/
import LedgerCore.Meter
import LedgerCore.Overlay
import Std.Data.ExtTreeMap

namespace LedgerCore

-- ================================================================= inputs

/-- What a procedure is applied to. -/
inductive Input (P : Type) where
  /-- The data of a system call. -/
  | call (data : Bytes)
  /-- A substate read, created or consumed. -/
  | substate (object : P)
  /-- A scan; its substates are pulled by the procedure's body. -/
  | index (selection : SubstateIndex)
  /-- The group is being closed. -/
  | close
deriving DecidableEq

/-- The form an input takes inside diagnostics. -/
def Input.diagnostic {P : Type} (object : P → String) : Input P → String
  | .call data => "Call(CallData(" ++ Bytes.quoted data ++ "))"
  | .substate p => "Substate(" ++ object p ++ ")"
  | .index selection => "Index(" ++ selection.diagnostic ++ ")"
  | .close => "End"

-- ================================================================ effects

/-- What an authorizer may do. -/
inductive AuthorizerOp where
  /-- Look at the context. -/
  | view
  /-- Look up a resource definition. -/
  | resource (addr : ResourceAddr)
  /-- Leave a note in the journal. -/
  | note (line : String)

/-- The answers to an authorizer's operations. -/
abbrev AuthorizerOp.Answer : AuthorizerOp → Type
  | view => Context.View
  | resource _ => Except ExecutionError ResourceDefinition
  | note _ => Unit

/-- The effects of an authorizer. -/
abbrev authorizerEffects : Effects := ⟨AuthorizerOp, AuthorizerOp.Answer⟩

/-- A program that ends in consent or in a refusal. -/
abbrev Authorizer := Program authorizerEffects (Except AuthorizationError Unit)

/-- What a procedure's body may do. -/
inductive BodyOp where
  /-- Operate on the context. -/
  | act (op : ContextOp)
  /-- Look at the context. -/
  | view
  /-- Ask whether authorization is skipped. -/
  | skips
  /-- Look up a resource definition. -/
  | resource (addr : ResourceAddr)
  /-- Ask how many substates the scan still offers. -/
  | pending
  /-- Pull the next substate from the scan. -/
  | pull
  /-- Leave a note in the journal. -/
  | note (line : String)

/-- The answers to a body's operations. -/
abbrev BodyOp.Answer (P : Type) : BodyOp → Type
  | act _ => Except ExecutionError ContextAnswer
  | view => Context.View
  | skips => Bool
  | resource _ => Except ExecutionError ResourceDefinition
  | pending => Nat
  | pull => Option (Except ExecutionError P)
  | note _ => Unit

/-- The effects of a procedure's body. -/
abbrev bodyEffects (P : Type) : Effects := ⟨BodyOp, BodyOp.Answer P⟩

/-- A program that ends in the next reducer state or in a failure. -/
abbrev Body (P R : Type) := Program (bodyEffects P) (Except ExecutionError (Option R))

-- ============================================================= procedures

/-- A rule of the ledger. -/
structure Procedure (P R : Type) where
  /-- The permission level an input needs. -/
  requiredLevel : Input P → PermissionLevel
  /-- Refuses callers who may not. -/
  authorize : Input P → Authorizer
  /-- Folds an input into the reducer state. -/
  body : Input P → Option R → Body P R

/-- The authorizer that lets everyone pass. -/
def Authorizer.allow : Authorizer := .done (.ok ())

/-- A table of procedures by key. -/
structure Procedures (P R : Type) where
  table : Std.ExtTreeMap ProcedureKey (Procedure P R)

namespace Procedures

variable {P R : Type}

/-- A table without any rule. -/
def empty : Procedures P R := ⟨∅⟩

/-- Registers a procedure, in place of an earlier one under the same key. -/
def register (procedures : Procedures P R) (key : ProcedureKey) (procedure : Procedure P R) :
    Procedures P R :=
  ⟨procedures.table.insert key procedure⟩

/-- The table of a list of registrations. -/
def ofList (registrations : List (ProcedureKey × Procedure P R)) : Procedures P R :=
  registrations.foldl (fun procedures (key, procedure) => procedures.register key procedure) empty

/-- The procedure under a key. -/
def get (procedures : Procedures P R) (key : ProcedureKey) :
    Except ExecutionError (Procedure P R) :=
  match procedures.table[key]? with
  | some procedure => .ok procedure
  | none => .error (.missingProcedure key)

/-- Whether there is a procedure under a key. -/
def contains (procedures : Procedures P R) (key : ProcedureKey) : Bool :=
  procedures.table.contains key

/-- The number of procedures. -/
def size (procedures : Procedures P R) : Nat := procedures.table.size

/-- The keys, in ascending order. -/
def keys (procedures : Procedures P R) : List ProcedureKey := procedures.table.keys

/-- The form a table takes inside diagnostics: its keys, in order. -/
def diagnostic (procedures : Procedures P R) : String :=
  "Procedures \x7b keys: ["
    ++ ", ".intercalate (procedures.keys.map ProcedureKey.diagnostic) ++ "] \x7d"

/-- A registration is found under its key; the other keys are as before. -/
theorem get_register (procedures : Procedures P R) (key other : ProcedureKey)
    (procedure : Procedure P R) :
    (procedures.register key procedure).get other
      = if key = other then .ok procedure else procedures.get other := by
  simp only [get, register, Std.ExtTreeMap.getElem?_insert, Std.LawfulEqOrd.compare_eq_iff_eq]
  by_cases h : key = other <;> simp [h]

end Procedures

-- ================================================================ running

/-- What a body works on: the scan before it, what it has pulled so far, the
context and the journal. -/
structure BodyState (P : Type) where
  offers : List (Except ExecutionError (ScanEntry P))
  pulled : List (ScanEntry P)
  ctx : Context
  journal : Journal

variable {P : Type}

/-- What each operation of an authorizer does: nothing but to the journal. -/
def AuthorizerOp.handle
    (resource : ResourceAddr → Except ExecutionError ResourceDefinition) (ctx : Context) :
    (op : AuthorizerOp) → Journal → op.Answer × Journal
  | view, journal => (ctx.view, journal)
  | .resource addr, journal => (resource addr, journal)
  | note line, journal => ((), journal.note line)

/-- What each operation of a body does. -/
def BodyOp.handle
    (resource : ResourceAddr → Except ExecutionError ResourceDefinition) :
    (op : BodyOp) → BodyState P → op.Answer P × BodyState P
  | act op, state =>
      let (answer, after) := op.run state.ctx
      (answer, { state with ctx := after })
  | view, state => (state.ctx.view, state)
  | skips, state => (state.ctx.skipAuthorization, state)
  | .resource addr, state => (resource addr, state)
  | pending, state => (state.offers.length, state)
  | pull, state =>
      match state.offers with
      | [] => (none, state)
      | .error cause :: rest => (some (.error cause), { state with offers := rest })
      | .ok entry :: rest =>
          (some (.ok entry.object),
            { state with offers := rest, pulled := state.pulled ++ [entry] })
  | note line, state => ((), { state with journal := state.journal.note line })

/-- Runs an authorizer. -/
def Authorizer.run (authorizer : Authorizer)
    (resource : ResourceAddr → Except ExecutionError ResourceDefinition) (ctx : Context)
    (journal : Journal) : Except AuthorizationError Unit × Journal :=
  Program.run (E := authorizerEffects) (AuthorizerOp.handle resource ctx) authorizer journal

/-- Runs a body. -/
def Body.run {R : Type} (body : Body P R)
    (resource : ResourceAddr → Except ExecutionError ResourceDefinition)
    (state : BodyState P) : Except ExecutionError (Option R) × BodyState P :=
  Program.run (E := bodyEffects P) (BodyOp.handle resource) body state

end LedgerCore
