/-
What the programs behind a call hear. The answers that a program's
operations get are nowhere kept; `Program.heard` lists those that are picked
out, in the order in which the program hears them, and `run_heard` is the
induction over the program that ties them to the state it leaves.

Of a call, two kinds of answers matter.

- The lookups of its authorizer and its body (`Machine.lookups`). Each is told
  what the resources in force say (`lookups_answered`).
- What its body is handed by its pulls (`Machine.handed`). This is the first
  part of what the scan offers, in order and errors included
  (`exists_handsOver`), and a call that succeeds reports the decodable part of
  it as pulled (`pulled_of_perform`). The report is what the machine acts on;
  what a body has pulled is a matter of what it was handed.
-/
import LedgerCore.Proofs.Machine.Call

namespace LedgerCore

-- ================================================================== programs

namespace Program

variable {E : Effects} {α β σ : Type}

/-- The answers among those a program hears that are picked out, in order. -/
def heard (handle : (op : E.Op) → σ → E.Answer op × σ)
    (pick : (op : E.Op) → E.Answer op → Option β) : Program E α → σ → List β
  | done _, _ => []
  | perform op next, s =>
      (pick op (handle op s).1).toList
        ++ (next (handle op s).1).heard handle pick (handle op s).2

/-- What every operation keeps of the state and of what was heard so far, a
whole program keeps. -/
theorem run_heard {handle : (op : E.Op) → σ → E.Answer op × σ}
    {pick : (op : E.Op) → E.Answer op → Option β} {I : List β → σ → Prop}
    (keeps : ∀ op before s, I before s →
      I (before ++ (pick op (handle op s).1).toList) (handle op s).2)
    (program : Program E α) (before : List β) {s : σ} (h : I before s) :
    I (before ++ program.heard handle pick s) (program.run handle s).2 := by
  induction program generalizing before s with
  | done result =>
      rw [heard, List.append_nil]
      exact h
  | perform op next ih =>
      -- what is heard here counts as heard before by the rest
      rw [heard, ← List.append_assoc]
      exact ih _ _ (keeps op before s h)

/-- What holds of every answer picked out holds of all a program hears. -/
theorem heard_forall {handle : (op : E.Op) → σ → E.Answer op × σ}
    {pick : (op : E.Op) → E.Answer op → Option β} {p : β → Prop}
    (each : ∀ op s b, pick op (handle op s).1 = some b → p b) (program : Program E α) (s : σ) :
    ∀ b ∈ program.heard handle pick s, p b := by
  refine run_heard (I := fun before _ => ∀ b ∈ before, p b) ?_ program [] ?_
  · intro op before s told b hmem
    rcases List.mem_append.mp hmem with earlier | new
    · exact told b earlier
    · exact each op s b (Option.mem_toList.mp new)
  · intro b hmem
    cases hmem

end Program

-- =================================================================== lookups

/-- A resource that was looked up, and what the lookup was told. -/
abbrev Lookup := ResourceAddr × Except ExecutionError ResourceDefinition

/-- The lookup an operation of an authorizer is. -/
def AuthorizerOp.lookup? : (op : AuthorizerOp) → op.Answer → Option Lookup
  | .resource addr, answer => some (addr, answer)
  | .view, _ | .note _, _ => none

variable {P R : Type}

/-- The lookup an operation of a body is. -/
def BodyOp.lookup? : (op : BodyOp) → op.Answer P → Option Lookup
  | .resource addr, answer => some (addr, answer)
  | .act _, _ | .view, _ | .skips, _ | .pending, _ | .pull, _ | .note _, _ => none

/-- The lookups of an authorizer. -/
def Authorizer.lookups (authorizer : Authorizer)
    (resource : ResourceAddr → Except ExecutionError ResourceDefinition) (ctx : Context)
    (journal : Journal) : List Lookup :=
  Program.heard (E := authorizerEffects) (AuthorizerOp.handle resource ctx) AuthorizerOp.lookup?
    authorizer journal

/-- The lookups of a body. -/
def Body.lookups (body : Body P R)
    (resource : ResourceAddr → Except ExecutionError ResourceDefinition) (state : BodyState P) :
    List Lookup :=
  Program.heard (E := bodyEffects P) (BodyOp.handle resource) BodyOp.lookup? body state

variable {resource : ResourceAddr → Except ExecutionError ResourceDefinition}

/-- An authorizer's lookups are told what the resources say. -/
theorem Authorizer.lookups_answered (authorizer : Authorizer) (ctx : Context)
    (journal : Journal) :
    ∀ lookup ∈ authorizer.lookups resource ctx journal, lookup.2 = resource lookup.1 := by
  refine Program.heard_forall (E := authorizerEffects) ?_ authorizer journal
  intro op journal lookup picked
  cases op with
  | resource addr =>
      cases picked
      rfl
  | view => cases picked
  | note line => cases picked

/-- A body's lookups are told what the resources say, whatever it did before
them. -/
theorem Body.lookups_answered (body : Body P R) (state : BodyState P) :
    ∀ lookup ∈ body.lookups resource state, lookup.2 = resource lookup.1 := by
  refine Program.heard_forall (E := bodyEffects P) ?_ body state
  intro op state lookup picked
  cases op with
  | resource addr =>
      cases picked
      rfl
  | _ => cases picked

-- ===================================================================== pulls

/-- What an operation of a body is handed. -/
def BodyOp.handed? : (op : BodyOp) → op.Answer P → Option (Except ExecutionError P)
  | .pull, answer => answer
  | .act _, _ | .view, _ | .skips, _ | .resource _, _ | .pending, _ | .note _, _ => none

/-- What a body is handed by its pulls: an object each, or the reason why
there is none. -/
def Body.pulls (body : Body P R)
    (resource : ResourceAddr → Except ExecutionError ResourceDefinition) (state : BodyState P) :
    List (Except ExecutionError P) :=
  Program.heard (E := bodyEffects P) (BodyOp.handle resource) BodyOp.handed? body state

/-- The offers that are gone are those that were handed over, and the
decodable ones among them are pulled. -/
private def BodyState.HandedFrom (offers : List (Except ExecutionError (ScanEntry P)))
    (handed : List (Except ExecutionError P)) (state : BodyState P) : Prop :=
  ∃ gone, offers = gone ++ state.offers ∧ handed = gone.map (·.map ScanEntry.object)
    ∧ state.pulled = gone.filterMap Except.toOption

/-- A pull moves one offer from those that are left to those that are gone,
and every other operation leaves both alone. -/
private theorem BodyOp.handle_handedFrom
    {offers : List (Except ExecutionError (ScanEntry P))} (op : BodyOp)
    (handed : List (Except ExecutionError P)) (state : BodyState P)
    (h : state.HandedFrom offers handed) :
    (BodyOp.handle resource op state).2.HandedFrom offers
      (handed ++ (BodyOp.handed? op (BodyOp.handle resource op state).1).toList) := by
  obtain ⟨gone, hoffers, rfl, hpulled⟩ := h
  obtain ⟨left, pulled, ctx, journal⟩ := state
  obtain rfl : offers = gone ++ left := hoffers
  obtain rfl : pulled = gone.filterMap Except.toOption := hpulled
  cases op with
  | pull =>
      cases left with
      -- behind the last offer, a pull is told so
      | nil => exact ⟨gone, rfl, List.append_nil _, rfl⟩
      | cons offer rest =>
          refine ⟨gone ++ [offer], ?_, ?_, ?_⟩
          · cases offer <;> simp [BodyOp.handle]
          · cases offer <;> simp [BodyOp.handle, BodyOp.handed?, Except.map]
          · cases offer <;> simp [BodyOp.handle, Except.toOption]
  | _ => exact ⟨gone, rfl, List.append_nil _, rfl⟩

/-- A body's pulls hand over what is offered first, one for one; what it
reports as pulled in the end is the decodable part of it. -/
theorem Body.exists_handed (body : Body P R)
    (resource : ResourceAddr → Except ExecutionError ResourceDefinition)
    (offers : List (Except ExecutionError (ScanEntry P))) (ctx : Context) (journal : Journal) :
    ∃ first rest, offers = first ++ rest
      ∧ body.pulls resource ⟨offers, [], ctx, journal⟩ = first.map (·.map ScanEntry.object)
      ∧ (body.run resource ⟨offers, [], ctx, journal⟩).2.pulled
        = first.filterMap Except.toOption := by
  have start : BodyState.HandedFrom offers [] ⟨offers, [], ctx, journal⟩ := ⟨[], rfl, rfl, rfl⟩
  obtain ⟨first, hoffers, handed, pulled⟩ :=
    Program.run_heard (E := bodyEffects P) (I := BodyState.HandedFrom offers)
      BodyOp.handle_handedFrom body [] start
  exact ⟨first, _, hoffers, handed, pulled⟩

-- ===================================================================== calls

namespace Machine

variable [StateObject P] [ReducerState R]

/-- The context and the journal that the authorizer of a call finds, if it
is asked. -/
def asked? (machine : Machine P R) (procedure : Procedure P R) (call : Call P R) :
    Option (Context × Journal) :=
  let required := procedure.requiredLevel call.input
  match call.run.ctx.checkPermission required with
  | .error _ => none
  | .ok () =>
      if call.run.ctx.level = .system then none
      else
        match (meterHook machine.meter required call.key).run call.run.ctx call.run.journal with
        | (.error _, _) => none
        | (.ok (), ctx, journal) => if ctx.skipAuthorization then none else some (ctx, journal)

/-- The state that the body of a call starts from, if the gate lets the call
through. -/
def entered? (machine : Machine P R) (ledger : Ledger P) (procedure : Procedure P R)
    (call : Call P R) : Option (BodyState P) :=
  match machine.admit? procedure call.key call.input (call.run.overlay.resource ledger)
      call.run.ctx call.run.journal with
  | (.error _, _) => none
  | (.ok (), ctx, journal) => some ⟨call.offers, [], ctx, journal⟩

/-- The lookups made on a call, by the authorizer and then by the body. -/
def lookups (machine : Machine P R) (ledger : Ledger P) (call : Call P R) : List Lookup :=
  match machine.procedures.get call.key with
  | .error _ => []
  | .ok procedure =>
      let resource := call.run.overlay.resource ledger
      ((machine.asked? procedure call).elim [] fun (ctx, journal) =>
          (procedure.authorize call.input).lookups resource ctx journal)
        ++ (machine.entered? ledger procedure call).elim []
            ((procedure.body call.input call.run.reduction.state).lookups resource)

/-- What the body of a call is handed by its pulls. -/
def handed (machine : Machine P R) (ledger : Ledger P) (call : Call P R) :
    List (Except ExecutionError P) :=
  match machine.procedures.get call.key with
  | .error _ => []
  | .ok procedure =>
      (machine.entered? ledger procedure call).elim []
        ((procedure.body call.input call.run.reduction.state).pulls
          (call.run.overlay.resource ledger))

section
variable {machine : Machine P R} {ledger : Ledger P} {call : Call P R}

/-- A lookup on a call is one of the authorizer's or one of the body's. -/
theorem mem_lookups_iff {procedure : Procedure P R} {lookup : Lookup}
    (found : machine.procedures.get call.key = .ok procedure) :
    lookup ∈ machine.lookups ledger call ↔
      (∃ ctx journal, machine.asked? procedure call = some (ctx, journal)
          ∧ lookup ∈ (procedure.authorize call.input).lookups (call.run.overlay.resource ledger)
              ctx journal)
        ∨ ∃ state, machine.entered? ledger procedure call = some state
          ∧ lookup ∈ (procedure.body call.input call.run.reduction.state).lookups
              (call.run.overlay.resource ledger) state := by
  rw [lookups, found]
  dsimp only
  rw [List.mem_append]
  refine or_congr ?_ ?_
  · cases machine.asked? procedure call with
    | none => simp
    | some start =>
        obtain ⟨ctx, journal⟩ := start
        simp [and_assoc]
  · cases machine.entered? ledger procedure call with
    | none => simp
    | some state => simp

/-- Every lookup made on a call is told what the resources say that are in
force by then. -/
theorem lookups_answered (machine : Machine P R) (ledger : Ledger P) (call : Call P R) :
    ∀ lookup ∈ machine.lookups ledger call,
      lookup.2 = call.run.overlay.resource ledger lookup.1 := by
  intro lookup looked
  cases found : machine.procedures.get call.key with
  | error cause =>
      rw [lookups, found] at looked
      cases looked
  | ok procedure =>
      rcases (mem_lookups_iff found).mp looked with ⟨ctx, journal, -, asked⟩ | ⟨state, -, entered⟩
      · exact Authorizer.lookups_answered _ _ _ lookup asked
      · exact Body.lookups_answered _ _ lookup entered

/-- Behind the gate, a call hands over what the pulls of its body do. -/
theorem handed_of_admitted {procedure : Procedure P R} {ctx : Context} {journal : Journal}
    (found : machine.procedures.get call.key = .ok procedure)
    (gate : machine.admit? procedure call.key call.input (call.run.overlay.resource ledger)
      call.run.ctx call.run.journal = (.ok (), ctx, journal)) :
    machine.handed ledger call
      = (procedure.body call.input call.run.reduction.state).pulls
          (call.run.overlay.resource ledger) ⟨call.offers, [], ctx, journal⟩ := by
  rw [handed, found]
  dsimp only
  rw [entered?, gate]
  rfl

/-- The body of a call is handed the first part of what the call offers, one
for one, and leaves the rest. -/
structure HandsOver (machine : Machine P R) (ledger : Ledger P) (call : Call P R)
    (first rest : List (Except ExecutionError (ScanEntry P))) : Prop where
  offered : call.offers = first ++ rest
  handed : machine.handed ledger call = first.map (·.map ScanEntry.object)

variable {first rest : List (Except ExecutionError (ScanEntry P))}

theorem HandsOver.take_eq (hands : machine.HandsOver ledger call first rest) :
    call.offers.take (machine.handed ledger call).length = first := by
  rw [hands.offered, hands.handed, List.length_map, List.take_left' rfl]

/-- A call hands over the first part of what it offers, whatever becomes of
it. -/
theorem exists_handsOver (machine : Machine P R) (ledger : Ledger P) (call : Call P R) :
    ∃ first rest, machine.HandsOver ledger call first rest := by
  cases found : machine.procedures.get call.key with
  | error cause =>
      refine ⟨[], call.offers, rfl, ?_⟩
      rw [handed, found]
      rfl
  | ok procedure =>
      rcases gate : machine.admit? procedure call.key call.input
        (call.run.overlay.resource ledger) call.run.ctx call.run.journal
        with ⟨cause | ⟨⟩, ctx, journal⟩
      -- refused at the gate, the body is not entered
      · refine ⟨[], call.offers, rfl, ?_⟩
        rw [handed, found]
        dsimp only
        rw [entered?, gate]
        rfl
      · obtain ⟨first, rest, offered, handed, -⟩ :=
          (procedure.body call.input call.run.reduction.state).exists_handed
            (call.run.overlay.resource ledger) call.offers ctx journal
        exact ⟨first, rest, offered, (handed_of_admitted found gate).trans handed⟩

/-- What a call that succeeds reports as pulled is the decodable part of what
its body was handed. -/
theorem pulled_of_perform {pulled : List (ScanEntry P)} {after : Run P R}
    (hands : machine.HandsOver ledger call first rest)
    (h : machine.perform ledger call = (.ok pulled, after)) :
    pulled = first.filterMap Except.toOption := by
  obtain ⟨procedure, ctx, journal, next, final, found, gate, ran, rfl, -⟩ := perform_admitted h
  obtain ⟨first', rest', offered, handed, pulled⟩ :=
    (procedure.body call.input call.run.reduction.state).exists_handed
      (call.run.overlay.resource ledger) call.offers ctx journal
  -- the first part is the same one, as its length is that of what was handed over
  have same : machine.HandsOver ledger call first' rest' :=
    ⟨offered, (handed_of_admitted found gate).trans handed⟩
  rw [ran] at pulled
  rw [pulled, ← same.take_eq, hands.take_eq]

end

end Machine

end LedgerCore
