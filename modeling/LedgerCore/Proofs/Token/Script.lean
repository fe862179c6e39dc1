/-
What the bodies of the token ledger's rules do. Bodies are scripts, put
together from a few operations by sequencing; this file inverts a script
that succeeds at each sequencing point (`Script.exec_bind_ok`), so that
what a rule does is read off its steps one at a time.

- `Script.Only` bounds the operations a script performs. No rule asks for
  the flag that skips authorizers (`Rule.blind_body`), and scripts that do
  not pull leave the scan as it is (`Script.pulled_of_only`).
- `Step.Moves` says what a step makes of the registers, and `Step.run_ok`
  that it does; the sum register follows what is pulled.
-/
import LedgerCore.Proofs.Context.Authority
import LedgerCore.Proofs.Machine.Balance
import LedgerCore.Token.Plain

namespace LedgerCore

/-- What a table made of a list finds is in the list, whichever of several
entries under one key came last. -/
theorem Procedures.mem_of_get_ofList {P R : Type}
    {registrations : List (ProcedureKey × Procedure P R)} {key : ProcedureKey}
    {procedure : Procedure P R} (h : (ofList registrations).get key = .ok procedure) :
    (key, procedure) ∈ registrations := by
  suffices general : ∀ earlier : Procedures P R,
      (registrations.foldl (fun procedures entry => procedures.register entry.1 entry.2)
        earlier).get key = .ok procedure →
      (key, procedure) ∈ registrations ∨ earlier.get key = .ok procedure by
    rcases general empty h with hmem | hempty
    · exact hmem
    · simp [get, empty] at hempty
  -- the induction is on what is still to be registered
  clear h
  induction registrations with
  | nil => exact fun _ h => .inr h
  | cons registration rest ih =>
      intro earlier h
      rcases ih _ h with hmem | hearlier
      · exact .inl (List.mem_cons_of_mem _ hmem)
      · rw [get_register] at hearlier
        split at hearlier
        · next hkey =>
            cases hearlier
            rw [← hkey]
            exact .inl List.mem_cons_self
        · exact .inr hearlier

namespace Token

/-- What the table of some rules finds under a key is one of the rules with
that key. -/
theorem Rule.exists_of_get {rules : List Rule} {key : ProcedureKey}
    {procedure : Procedure Object Holding} (h : (Rule.table rules).get key = .ok procedure) :
    ∃ rule ∈ rules, rule.key = key ∧ rule.toProcedure = procedure := by
  obtain ⟨rule, hrule, heq⟩ := List.mem_map.mp (Procedures.mem_of_get_ofList h)
  cases heq
  exact ⟨rule, hrule, rfl, rfl⟩

namespace Script

variable {α β : Type}

-- ============================================================ what scripts ask

/-- Whatever the answers, the script performs such operations only. -/
def Only (allowed : BodyOp → Prop) (script : Script α) : Prop :=
  Program.Only (E := bodyEffects Object) allowed script.run

namespace Only

variable {allowed : BodyOp → Prop}

theorem pure (a : α) : (Pure.pure a : Script α).Only allowed := trivial

theorem throw (cause : ExecutionError) :
    (MonadExcept.throw cause : Script α).Only allowed := trivial

theorem reject (reason : String) : (Script.reject reason : Script α).Only allowed := trivial

theorem bind {script : Script α} {next : α → Script β} (first : script.Only allowed)
    (rest : ∀ a, (next a).Only allowed) : (script >>= next).Only allowed := by
  refine Program.Only.bind first fun result => ?_
  cases result with
  | ok a => exact rest a
  | error cause => exact trivial

theorem act {op : ContextOp} (h : allowed (.act op)) : (Script.act op).Only allowed :=
  ⟨h, fun _ => trivial⟩

theorem attempt {op : ContextOp} (h : allowed (.act op)) : (Script.attempt op).Only allowed :=
  ⟨h, fun _ => trivial⟩

theorem resource {addr : ResourceAddr} (h : allowed (.resource addr)) :
    (Script.resource addr).Only allowed :=
  ⟨h, fun _ => trivial⟩

theorem pending (h : allowed .pending) : Script.pending.Only allowed := ⟨h, fun _ => trivial⟩

theorem pull (h : allowed .pull) : Script.pull.Only allowed := ⟨h, fun _ => trivial⟩

theorem note {line : String} (h : allowed (.note line)) : (Script.note line).Only allowed :=
  ⟨h, fun _ => trivial⟩

end Only

-- ============================================================ what scripts do

/-- Runs a script. -/
def exec (script : Script α) (resource : ResourceAddr → Except ExecutionError ResourceDefinition)
    (start : BodyState Object) : Except ExecutionError α × BodyState Object :=
  Program.run (E := bodyEffects Object) (BodyOp.handle resource) script.run start

variable {resource : ResourceAddr → Except ExecutionError ResourceDefinition}
  {start final : BodyState Object}

/-- A script that succeeds has succeeded up to every point of it. -/
theorem exec_bind_ok {script : Script α} {next : α → Script β} {b : β}
    (h : (script >>= next).exec resource start = (.ok b, final)) :
    ∃ a mid, script.exec resource start = (.ok a, mid)
      ∧ (next a).exec resource mid = (.ok b, final) := by
  change Program.run (E := bodyEffects Object) (BodyOp.handle resource)
    (Program.bind script.run (ExceptT.bindCont next)) start = _ at h
  rw [Program.run_bind] at h
  rcases ran : script.exec resource start with ⟨cause | a, mid⟩
  · rw [show Program.run (E := bodyEffects Object) (BodyOp.handle resource) script.run start
      = _ from ran] at h
    cases h
  · rw [show Program.run (E := bodyEffects Object) (BodyOp.handle resource) script.run start
      = _ from ran] at h
    exact ⟨a, mid, rfl, h⟩

/-- A script that only returns leaves the state alone. -/
theorem exec_pure_ok {a b : α} (h : (pure a : Script α).exec resource start = (.ok b, final)) :
    b = a ∧ final = start := by
  cases h
  exact ⟨rfl, rfl⟩

/-- A script that does not pull leaves what was pulled as it is. -/
theorem pulled_of_only {script : Script α} (only : script.Only (· ≠ .pull)) :
    (script.exec resource start).2.pulled = start.pulled := by
  refine Program.Only.run_keeps (I := fun state : BodyState Object => state.pulled = start.pulled)
    ?_ only rfl
  intro op state asked kept
  cases op with
  | pull => exact absurd rfl asked
  | act op => exact kept
  | view => exact kept
  | skips => exact kept
  | resource addr => exact kept
  | pending => exact kept
  | note line => exact kept

/-- A pull that succeeds has met the end of the scan, or what could not be
decoded, or an object that is pulled from now on. -/
theorem exec_pull_ok {offer : Option (Except ExecutionError Object)}
    (h : Script.pull.exec resource start = (.ok offer, final)) :
    match offer with
    | some (.ok object) => ∃ entry, entry.object = object ∧ final.pulled = start.pulled ++ [entry]
    | _ => final.pulled = start.pulled := by
  obtain ⟨offers, pulled, ctx, journal⟩ := start
  rcases offers with _ | ⟨cause | entry, rest⟩
  · cases h
    exact rfl
  · cases h
    exact rfl
  · cases h
    exact ⟨entry, rfl, rfl⟩

end Script

-- =========================================================== what steps ask

/-- Operations that neither pull nor ask for the flag. -/
def quiet (op : BodyOp) : Prop := op ≠ .skips ∧ op ≠ .pull

theorem announceResource_only (addr : ResourceAddr) : (announceResource addr).Only quiet :=
  .bind (.resource ⟨nofun, nofun⟩) fun _ => .bind (.act ⟨nofun, nofun⟩) fun _ =>
    .note ⟨nofun, nofun⟩

/-- The arguments of a system call are read off the data alone. -/
theorem callAmount_only (arguments : Bytes) : (callAmount arguments).Only quiet := by
  unfold callAmount
  split
  · exact .reject _
  · exact .pure _

theorem perform_only (op : ContextOp) : (runSyscall.perform op).Only quiet :=
  .bind (.act ⟨nofun, nofun⟩) fun _ => .pure ()

/-- Whatever its first byte says, a system call pulls nothing. -/
theorem runSyscall_only (data : Bytes) : (runSyscall data).Only quiet := by
  unfold runSyscall
  split
  · exact .bind (callAmount_only _) fun _ => perform_only _
  · exact announceResource_only _
  · exact perform_only _
  · exact .bind (callAmount_only _) fun _ => perform_only _
  · exact .bind (callAmount_only _) fun _ => perform_only _
  · exact .bind (callAmount_only _) fun _ => perform_only _
  · exact .reject _

/-- To pull a number of substates asks for no flag. -/
theorem pullUpTo_only (lenient : Bool) (left : Nat) (registers : Registers) :
    (pullUpTo lenient left registers).Only (· ≠ .skips) := by
  induction left generalizing registers with
  | zero => exact .pure _
  | succ left ih =>
      refine .bind (.pull nofun) fun offer => ?_
      split
      · exact .pure _
      · exact .bind (.note nofun) fun _ => ih _
      · split
        · exact .bind (.note nofun) fun _ => ih _
        · exact .throw _

/-- Whether a step pulls. -/
def Step.pulls : Step → Bool
  | pull .. => true
  | _ => false

namespace Step

/-- To ask for tokens is to look at the input. -/
theorem requireTokens_only (input : Input Object) : (requireTokens input).Only quiet := by
  unfold requireTokens
  split
  · exact .pure _
  · exact .reject _

/-- To ask for a state is to look at the registers. -/
theorem requireState_only (registers : Registers) : (requireState registers).Only quiet := by
  unfold requireState
  split
  · exact .pure _
  · exact .reject _

/-- Every step but the one that pulls is quiet. -/
theorem run_only (input : Input Object) (registers : Registers) {step : Step}
    (h : step.pulls = false) : (step.run input registers).Only quiet := by
  cases step with
  | pull limit lenient => cases h
  | fail reason => exact .reject _
  | clear => exact .pure _
  | set holding => exact .pure _
  | setSum kind => exact .pure _
  | setCount kind => exact .pure _
  | take kind => exact .bind (requireTokens_only _) fun _ => .pure _
  | add =>
      exact .bind (requireTokens_only _) fun _ => .bind (requireState_only _) fun _ => .pure _
  -- more than there is cannot be handed out
  | sub =>
      refine .bind (requireTokens_only _) fun amount =>
        .bind (requireState_only _) fun holding => ?_
      split
      · exact .bind (.reject _) fun _ => .pure _
      · exact .pure _
  | syscall =>
      cases input with
      | call data => exact .bind (runSyscall_only data) fun _ => .pure _
      | _ => exact .reject _
  | resource addr => exact .bind (announceResource_only _) fun _ => .pure _
  | act op => exact .bind (.act ⟨nofun, nofun⟩) fun _ => .pure _
  | tryAct op =>
      refine .bind (.attempt ⟨nofun, nofun⟩) fun answer => ?_
      split
      · exact .bind (.note ⟨nofun, nofun⟩) fun _ => .pure _
      · exact .bind (.note ⟨nofun, nofun⟩) fun _ => .pure _
  | debug => exact .bind (.note ⟨nofun, nofun⟩) fun _ => .pure _

/-- No step asks for the flag. -/
theorem run_blind (input : Input Object) (registers : Registers) (step : Step) :
    (step.run input registers).Only (· ≠ .skips) := by
  cases hpulls : step.pulls with
  | false => exact Program.Only.mono (run_only input registers hpulls) fun _ h => h.1
  | true =>
      cases step with
      | pull limit lenient =>
          cases input with
          -- the one step that pulls
          | index selection => exact .bind (.pending nofun) fun _ => pullUpTo_only _ _ _
          | _ => exact .reject _
      | _ => cases hpulls

/-- So no script of steps does. -/
theorem runAll_blind (input : Input Object) (steps : List Step) (registers : Registers) :
    (runAll input steps registers).Only (· ≠ .skips) := by
  induction steps generalizing registers with
  | nil => exact .pure _
  | cons step rest ih => exact .bind (run_blind input registers step) fun _ => ih _

end Step

/-- No rule asks whether authorization is skipped. -/
theorem Rule.blind_body (rule : Rule) (input : Input Object) (state : Option Holding) :
    Body.Blind (rule.toProcedure.body input state) :=
  Script.Only.bind (.note nofun) fun _ =>
    .bind (Step.runAll_blind input rule.steps _) fun _ => .pure _

-- ============================================================== what steps do

/-- How many tokens an object is. -/
def Object.amount (object : Object) : Nat := (tokenAmount? (.substate object)).getD 0

/-- How many tokens were pulled. -/
def pulledTokens (state : BodyState Object) : Nat :=
  sumOver Object.amount (state.pulled.map ScanEntry.object)

/-- What a step makes of the registers when it succeeds. -/
def Step.Moves (input : Input Object) (before after : Registers) : Step → Prop
  | fail _ => False
  | clear => after.state = none
  | set holding => after.state = some holding
  | take kind => ∃ amount, tokenAmount? input = some amount ∧ after.state = some ⟨kind, amount⟩
  | add => ∃ amount holding, tokenAmount? input = some amount ∧ before.state = some holding
      ∧ after.state = some { holding with value := holding.value + amount }
  | sub => ∃ amount holding, tokenAmount? input = some amount ∧ before.state = some holding
      ∧ amount ≤ holding.value
      ∧ after.state = Step.unlessZero holding.kind (holding.value - amount)
  | setSum kind => after.state = Step.unlessZero kind after.sum
  | setCount kind => after.state = some ⟨kind, after.count⟩
  | _ => after.state = before.state

section
open Script

variable {resource : ResourceAddr → Except ExecutionError ResourceDefinition}
  {start final : BodyState Object} {input : Input Object} {before after : Registers}

/-- Quiet scripts pull no tokens. -/
theorem pulledTokens_of_only {α : Type} {script : Script α} {a : α} (only : script.Only quiet)
    (h : script.exec resource start = (.ok a, final)) :
    pulledTokens final = pulledTokens start := by
  have same : (script.exec resource start).2.pulled = start.pulled :=
    pulled_of_only (Program.Only.mono only fun _ asked => asked.2)
  rw [h] at same
  unfold pulledTokens
  rw [same]

/-- One more substate pulled adds its tokens. -/
theorem pulledTokens_append {entry : ScanEntry Object}
    (h : final.pulled = start.pulled ++ [entry]) :
    pulledTokens final = pulledTokens start + entry.object.amount := by
  simp [pulledTokens, h]

/-- Pulling adds up what it pulls, and leaves the reducer state alone. -/
theorem pullUpTo_ok {lenient : Bool} {left : Nat}
    (h : (pullUpTo lenient left before).exec resource start = (.ok after, final))
    (sums : before.sum = pulledTokens start) :
    after.state = before.state ∧ after.sum = pulledTokens final := by
  induction left generalizing before start with
  | zero =>
      obtain ⟨rfl, rfl⟩ := exec_pure_ok h
      exact ⟨rfl, sums⟩
  | succ left ih =>
      obtain ⟨offer, mid, hpull, h⟩ := exec_bind_ok h
      have pulled := exec_pull_ok hpull
      split at h
      · obtain ⟨rfl, rfl⟩ := exec_pure_ok h
        refine ⟨rfl, ?_⟩
        rw [sums, pulledTokens, pulledTokens, show final.pulled = start.pulled from pulled]
      · next object =>
          obtain ⟨entry, rfl, hmid⟩ := pulled
          obtain ⟨noted, next, hnote, h⟩ := exec_bind_ok h
          have same := pulledTokens_of_only (.note ⟨nofun, nofun⟩) hnote
          have sums : (before.addPulled entry.object).sum = pulledTokens next := by
            rw [same, pulledTokens_append hmid, ← sums]
            rfl
          -- tokens or not, the sum grows by what the entry is worth
          have rest := ih h sums
          exact rest
      · -- an encoding that cannot be decoded is passed over or ends the scan
        next cause =>
          have kept : pulledTokens mid = pulledTokens start := by
            rw [pulledTokens, pulledTokens, show mid.pulled = start.pulled from pulled]
          split at h
          · obtain ⟨noted, next, hnote, h⟩ := exec_bind_ok h
            have same := pulledTokens_of_only (.note ⟨nofun, nofun⟩) hnote
            refine ih h ?_
            rw [same, kept, sums]
          · cases h

namespace Step

/-- Tokens that were asked for are what the input is worth. -/
theorem requireTokens_ok {amount : Nat}
    (h : (requireTokens input).exec resource start = (.ok amount, final)) :
    tokenAmount? input = some amount := by
  unfold requireTokens at h
  split at h
  · next some_amount hsome =>
      obtain ⟨rfl, -⟩ := exec_pure_ok h
      exact hsome
  · cases h

/-- A state that was asked for is what the registers hold. -/
theorem requireState_ok {holding : Holding}
    (h : (requireState before).exec resource start = (.ok holding, final)) :
    before.state = some holding := by
  unfold requireState at h
  split at h
  · next some_holding hsome =>
      obtain ⟨rfl, -⟩ := exec_pure_ok h
      exact hsome
  · cases h

/-- A step that does not pull leaves the sum alone and moves the state as it
should. -/
theorem moves_of_not_pulls {step : Step} (still : step.pulls = false)
    (h : (step.run input before).exec resource start = (.ok after, final)) :
    after.sum = before.sum ∧ step.Moves input before after := by
  cases step with
  | pull limit lenient => cases still
  | fail reason => cases h
  | clear =>
      obtain ⟨rfl, -⟩ := exec_pure_ok h
      exact ⟨rfl, rfl⟩
  | set holding =>
      obtain ⟨rfl, -⟩ := exec_pure_ok h
      exact ⟨rfl, rfl⟩
  | setSum kind =>
      obtain ⟨rfl, -⟩ := exec_pure_ok h
      exact ⟨rfl, rfl⟩
  | setCount kind =>
      obtain ⟨rfl, -⟩ := exec_pure_ok h
      exact ⟨rfl, rfl⟩
  -- the steps that move tokens ask for them first
  | take kind =>
      obtain ⟨amount, mid, hamount, h⟩ := exec_bind_ok h
      obtain ⟨rfl, -⟩ := exec_pure_ok h
      exact ⟨rfl, amount, requireTokens_ok hamount, rfl⟩
  | add =>
      obtain ⟨amount, mid, hamount, h⟩ := exec_bind_ok h
      obtain ⟨holding, mid', hholding, h⟩ := exec_bind_ok h
      obtain ⟨rfl, -⟩ := exec_pure_ok h
      exact ⟨rfl, amount, holding, requireTokens_ok hamount, requireState_ok hholding, rfl⟩
  | sub =>
      obtain ⟨amount, mid, hamount, h⟩ := exec_bind_ok h
      obtain ⟨holding, mid', hholding, h⟩ := exec_bind_ok h
      dsimp only at h
      split at h
      · obtain ⟨_, _, hreject, _⟩ := exec_bind_ok h
        cases hreject
      · next covered =>
          obtain ⟨rfl, -⟩ := exec_pure_ok h
          exact ⟨rfl, amount, holding, requireTokens_ok hamount, requireState_ok hholding,
            Nat.not_lt.mp covered, rfl⟩
  -- the others leave the state alone, whatever they do to the context
  | syscall =>
      cases input with
      | call data =>
          obtain ⟨_, _, _, h⟩ := exec_bind_ok h
          obtain ⟨rfl, -⟩ := exec_pure_ok h
          exact ⟨rfl, rfl⟩
      | _ => cases h
  | resource addr =>
      obtain ⟨_, _, _, h⟩ := exec_bind_ok h
      obtain ⟨rfl, -⟩ := exec_pure_ok h
      exact ⟨rfl, rfl⟩
  | act op =>
      obtain ⟨_, _, _, h⟩ := exec_bind_ok h
      obtain ⟨rfl, -⟩ := exec_pure_ok h
      exact ⟨rfl, rfl⟩
  | tryAct op =>
      obtain ⟨answer, _, _, h⟩ := exec_bind_ok h
      split at h
      · obtain ⟨_, _, _, h⟩ := exec_bind_ok h
        obtain ⟨rfl, -⟩ := exec_pure_ok h
        exact ⟨rfl, rfl⟩
      · obtain ⟨_, _, _, h⟩ := exec_bind_ok h
        obtain ⟨rfl, -⟩ := exec_pure_ok h
        exact ⟨rfl, rfl⟩
  | debug =>
      obtain ⟨_, _, _, h⟩ := exec_bind_ok h
      obtain ⟨rfl, -⟩ := exec_pure_ok h
      exact ⟨rfl, rfl⟩

/-- A step that succeeds moves the state as it should, and the sum register
goes on telling how many tokens were pulled. -/
theorem run_ok {step : Step} (h : (step.run input before).exec resource start = (.ok after, final))
    (sums : before.sum = pulledTokens start) :
    step.Moves input before after ∧ after.sum = pulledTokens final := by
  cases hpulls : step.pulls with
  | false =>
      obtain ⟨sum, moves⟩ := moves_of_not_pulls hpulls h
      have same := pulledTokens_of_only (run_only input before hpulls) h
      exact ⟨moves, by rw [sum, same, sums]⟩
  | true =>
      cases step with
      | pull limit lenient =>
          cases input with
          | index selection =>
              obtain ⟨offered, mid, hpending, h⟩ := exec_bind_ok h
              have same := pulledTokens_of_only (.pending ⟨nofun, nofun⟩) hpending
              exact pullUpTo_ok h (by rw [same, sums])
          | _ => cases h
      | _ => cases hpulls

/-- What steps make of the registers one after another. -/
def MovesAll (input : Input Object) : List Step → Registers → Registers → Prop
  | [], before, after => after = before
  | step :: rest, before, after =>
      ∃ mid, step.Moves input before mid ∧ MovesAll input rest mid after

/-- Steps that succeed one after another move the registers one after
another. -/
theorem runAll_ok {steps : List Step}
    (h : (runAll input steps before).exec resource start = (.ok after, final))
    (sums : before.sum = pulledTokens start) :
    MovesAll input steps before after ∧ after.sum = pulledTokens final := by
  induction steps generalizing before start with
  | nil =>
      obtain ⟨rfl, rfl⟩ := exec_pure_ok h
      exact ⟨rfl, sums⟩
  | cons step rest ih =>
      obtain ⟨mid, state, hstep, h⟩ := exec_bind_ok h
      obtain ⟨moves, midSums⟩ := run_ok hstep sums
      obtain ⟨movesAll, afterSums⟩ := ih h midSums
      exact ⟨⟨mid, moves, movesAll⟩, afterSums⟩

end Step

/-- A rule whose body succeeds has made its steps, the last of which left
the next reducer state. -/
theorem Rule.body_ok {rule : Rule} {state next : Option Holding}
    (h : (rule.toProcedure.body input state).run resource start = (.ok next, final))
    (fresh : start.pulled = []) :
    ∃ after, Step.MovesAll input rule.steps ⟨state, 0, 0⟩ after
      ∧ after.state = next ∧ after.sum = pulledTokens final := by
  obtain ⟨_, mid, hnote, h⟩ := exec_bind_ok h
  have same := pulledTokens_of_only (.note ⟨nofun, nofun⟩) hnote
  obtain ⟨after, ended, hsteps, h⟩ := exec_bind_ok h
  obtain ⟨rfl, rfl⟩ := exec_pure_ok h
  have sums : 0 = pulledTokens mid := by
    rw [same, pulledTokens, fresh]
    rfl
  obtain ⟨moves, afterSums⟩ := Step.runAll_ok hsteps sums
  exact ⟨after, moves, rfl, afterSums⟩

end

end Token

end LedgerCore
