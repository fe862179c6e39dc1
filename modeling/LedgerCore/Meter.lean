/-
Fee meters. The machine calls a meter once at the start, before every
procedure that is not reserved to the system, and on every signature
marker. A hook is a program over the public operations of the context; its
failure rejects the transaction.

Beside the free meter there are two that charge once per transaction, on
the first user procedure other than a system call. System calls are exempt
so that a transaction can fund its reserve before it is charged.

The journal of a run holds the notes that rules, authorizers and meters leave
as they are called, in order, and how many committed scans were opened. It is
kept apart from what a run decides; nothing reads it back.
-/
import LedgerCore.Context.Op
import LedgerCore.Program

namespace LedgerCore

-- ================================================================ journals

/-- What was noted during a run. -/
structure Journal where
  notes : List String
  scans : Nat
deriving DecidableEq

namespace Journal

/-- A journal with nothing in it. -/
def blank : Journal := ⟨[], 0⟩

/-- Adds a note. -/
def note (journal : Journal) (line : String) : Journal :=
  { journal with notes := journal.notes ++ [line] }

/-- Counts one more opened scan. -/
def countScan (journal : Journal) : Journal :=
  { journal with scans := journal.scans + 1 }

end Journal

-- ================================================================ effects

/-- What a meter's hook may do. -/
inductive MeterOp where
  /-- Operate on the context. -/
  | act (op : ContextOp)
  /-- Look at the context. -/
  | view
  /-- Ask whether authorization is skipped. -/
  | skips
  /-- Leave a note in the journal. -/
  | note (line : String)

/-- The answers to a meter's operations. -/
abbrev MeterOp.Answer : MeterOp → Type
  | act _ => Except ExecutionError ContextAnswer
  | view => Context.View
  | skips => Bool
  | note _ => Unit

/-- The effects of a meter's hook. -/
abbrev meterEffects : Effects := ⟨MeterOp, MeterOp.Answer⟩

/-- A hook: a program that ends in success or in a failure. -/
abbrev MeterHook := Program meterEffects (Except ExecutionError Unit)

/-- What each operation of a hook does. -/
def MeterOp.handle : (op : MeterOp) → Context × Journal → op.Answer × (Context × Journal)
  | act op, (ctx, journal) =>
      let (answer, after) := op.run ctx
      (answer, after, journal)
  | view, (ctx, journal) => (ctx.view, ctx, journal)
  | skips, (ctx, journal) => (ctx.skipAuthorization, ctx, journal)
  | note line, (ctx, journal) => ((), ctx, journal.note line)

/-- Runs a hook. -/
def MeterHook.run (hook : MeterHook) (ctx : Context) (journal : Journal) :
    Except ExecutionError Unit × (Context × Journal) :=
  Program.run (E := meterEffects) MeterOp.handle hook (ctx, journal)

namespace MeterHook

/-- A hook that does nothing. -/
def nothing : MeterHook := .done (.ok ())

/-- A hook that operates on the context once. -/
def act (op : ContextOp) : MeterHook :=
  .perform (E := meterEffects) (.act op) fun answer =>
    match answer with
    | .ok _ => .done (.ok ())
    | .error cause => .done (.error cause)

/-- A hook that operates on the context step by step, up to the first failure. -/
def acts : List ContextOp → MeterHook
  | [] => nothing
  | op :: rest =>
      .perform (E := meterEffects) (.act op) fun answer =>
        match answer with
        | .ok _ => acts rest
        | .error cause => .done (.error cause)

/-- A hook that notes that it was called. -/
def noting (line : String) (hook : MeterHook) : MeterHook :=
  .perform (E := meterEffects) (.note line) fun _ => hook

end MeterHook

-- ================================================================= meters

/-- A fee policy, as the hooks the machine calls. -/
structure Meter where
  onStart : MeterHook
  onUser : ProcedureKey → MeterHook
  onSuperUser : ProcedureKey → MeterHook
  onSig : MeterHook

namespace Meter

/-- Charges nothing. -/
def free : Meter where
  onStart := .nothing
  onUser _ := .nothing
  onSuperUser _ := .nothing
  onSig := .nothing

/-- Charges a fee once, on the first user procedure that is no system call. -/
def chargingOnce (fee : Txn → Except ExecutionError Amount) : Meter :=
  { free with
    onUser := fun key =>
      if key.op.op = .syscall then .nothing else .act (.chargeOnce fee) }

/-- Charges a flat fee. -/
def fixed (fee : Amount) : Meter := chargingOnce fun _ => .ok fee

/-- A fee in proportion to a transaction's size. -/
def sizeFee (perByte : Amount) (txn : Txn) : Except ExecutionError Amount :=
  match perByte.mul? txn.size with
  | some fee => .ok fee
  | none => .error .amountOverflow

/-- Charges in proportion to a transaction's size. -/
def bySize (perByte : Amount) : Meter := chargingOnce (sizeFee perByte)

/-- The same policy, noting every call before it is made. -/
def noting (meter : Meter) : Meter where
  onStart := meter.onStart.noting "meter start"
  onUser key := (meter.onUser key).noting ("meter user " ++ key.text)
  onSuperUser key := (meter.onSuperUser key).noting ("meter super " ++ key.text)
  onSig := meter.onSig.noting "meter sig"

end Meter

end LedgerCore
