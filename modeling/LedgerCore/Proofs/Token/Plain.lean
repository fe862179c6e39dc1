/-
What the plain rules ask of the context. It is little: a deposit, an event,
and whether resources may be created now (`Plain.Asks`). They neither charge
nor lend nor sign, so under them a transaction's reserve is spent by its
meter alone, and its signature budget by its markers alone.
-/
import LedgerCore.Proofs.Token.Script

namespace LedgerCore.Token.Plain

/-- The operations that bodies of the plain rules perform. -/
def Asks : BodyOp → Prop
  | .act (.deposit ..) | .act (.emit _) | .act .checkAllocation => True
  | .act _ => False
  | _ => True

-- ==================================================================== handlers

variable (input : Input Object) (state : Option Flow)

theorem drop_asks : (drop input state).Only Asks := .pure _

theorem keep_asks : (keep input state).Only Asks := .pure _

theorem allocate_asks : (allocate input state).Only Asks :=
  .bind (.act trivial) fun _ => .pure _

/-- A system call deposits, or announces a resource by an event. -/
theorem syscall_asks : (syscall input state).Only Asks := by
  unfold syscall
  split
  · split
    · exact .bind (.reject _) fun _ => .bind (.act trivial) fun _ => .pure _
    · exact .bind (.act trivial) fun _ => .pure _
  · exact .bind (.resource trivial) fun _ => .bind (.act trivial) fun _ => .pure _
  · exact .reject _
  · exact .reject _

/-- Consuming tokens acts on the reducer state alone. -/
theorem takeUp_asks : (takeUp input state).Only Asks := by
  unfold takeUp
  split
  · exact .pure _
  · exact .reject _

/-- Creating tokens acts on the reducer state alone. -/
theorem handOver_asks : (handOver input state).Only Asks := by
  unfold handOver
  split
  · next holder amount owner remaining =>
      dsimp only
      by_cases more : remaining < amount
      · rw [if_pos more]
        exact .bind (.reject _) fun _ => .pure _
      · rw [if_neg more]
        exact .pure _
  · exact .reject _

/-- However much is pulled, only pulls are asked for. -/
theorem sweep_asks (left : Nat) (owner : Option UInt8) (total : Nat) :
    (sweep left owner total).Only Asks := by
  induction left generalizing owner total with
  | zero => exact .pure _
  | succ left ih =>
      refine .bind (.pull trivial) fun offer => ?_
      split
      · exact .pure _
      · exact .throw _
      · split
        · exact .bind (.reject _) fun _ => ih _ _
        · exact ih _ _
      · exact ih _ _

/-- A consuming scan first asks how much there is. -/
theorem sweepAll_asks : (sweepAll input state).Only Asks := by
  unfold sweepAll
  split
  · exact .bind (.pending trivial) fun offered => .bind (sweep_asks _ _ _) fun _ => .pure _
  · exact .reject _

/-- Counting asks for pulls as well. -/
theorem tally_asks (left number : Nat) : (tally left number).Only Asks := by
  induction left generalizing number with
  | zero => exact .pure _
  | succ left ih =>
      refine .bind (.pull trivial) fun offer => ?_
      split
      · exact .pure _
      · exact .throw _
      · exact ih _

theorem tallyAll_asks : (tallyAll input state).Only Asks := by
  unfold tallyAll
  split
  · exact .bind (.pending trivial) fun offered => .bind (tally_asks _ _) fun _ => .pure _
  · exact .reject _

-- ======================================================================= table

/-- Whatever the table of plain rules finds performs these operations
only. -/
theorem plainRules_ask {key : ProcedureKey} {procedure : Procedure Object Flow}
    (found : (Procedures.ofList plainRules).get key = .ok procedure) :
    Program.Only (E := bodyEffects Object) Asks (procedure.body input state) := by
  have handlers : ∀ entry ∈ plainRules, Script.Only Asks (entry.2.body input state) := by
    have drops := drop_asks input state
    simp only [plainRules, List.forall_mem_cons]
    exact ⟨syscall_asks input state, takeUp_asks input state, handOver_asks input state,
      keep_asks input state, drops, drops, allocate_asks input state, drops, drops, drops, drops,
      sweepAll_asks input state, tallyAll_asks input state, drops, List.forall_mem_nil _⟩
  exact handlers (key, procedure) (Procedures.mem_of_get_ofList found)

end LedgerCore.Token.Plain
