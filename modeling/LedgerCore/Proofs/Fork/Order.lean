/-
The order in which forks become active. Nothing checks it at a boundary; it
follows from the links. The link out of the fork at a place of the schedule
leads to the fork at the next place (`Sound.target_link?`), which rests on
names being distinct, and a boundary makes active only what the link out of
the current fork leads to, and that in time (`run_enacted?_movesOn`).

# Going on

`carryOn` is a ledger that is not put off: a boundary that fails or makes
nothing active leaves the current fork as it is, and whatever it recorded. So
the current fork only ever moves to the next place of the schedule
(`carryOn_prefix`). A boundary keeps the activations on record, also if it
fails (`keeps_processBoundary`), so what is recorded for a fork as it becomes
active is there in the end (`carryOn_recorded`).
-/
import LedgerCore.Proofs.Fork.Repetition

namespace LedgerCore

variable {ρ : Type}

/-- A fixed fork is timely from its epoch on, a candidate within its window. -/
def Fork.TimelyAt (epoch : Epoch) : Fork ρ → Prop
  | .fixed fork => fork.epoch ≤ epoch
  | .candidate fork => fork.schedule.windowContains epoch = true

namespace Registry

-- ======================================================================= links

/-- The fork that a link leads to. -/
def target (registry : Registry ρ) : Link → Option (Fork ρ)
  | .fixed index => registry.fixed[index]?.map .fixed
  | .candidate => registry.candidate.map .candidate

variable {registry : Registry ρ}

/-- The fixed forks stand at the first places. -/
theorem forks_getElem?_of_lt {place : Nat} (h : place < registry.fixed.length) :
    registry.forks[place]? = registry.fixed[place]?.map .fixed := by
  rw [forks, List.getElem?_append_left (by simpa using h), List.getElem?_map]

/-- The candidate stands behind them. -/
theorem forks_getElem?_length :
    registry.forks[registry.fixed.length]? = registry.candidate.map .candidate := by
  rw [forks, List.getElem?_append_right (by simp)]
  cases registry.candidate with
  | none => simp
  | some candidate => simp

/-- Nothing stands behind the candidate. -/
theorem forks_getElem?_of_length_lt {place : Nat} (h : registry.fixed.length < place) :
    registry.forks[place]? = none := by
  have past : registry.fixed.length + 1 ≤ place := h
  refine List.getElem?_eq_none ?_
  rw [forks, List.length_append, List.length_map]
  cases registry.candidate with
  | none => simpa using Nat.le_of_lt h
  | some candidate => simpa using past

/-- The link out of the fork at a place leads to the fork at the next one. -/
theorem Sound.target_link? (sound : registry.Sound) {place : Nat} {current : Fork ρ}
    (here : registry.forks[place]? = some current) :
    (registry.link? current.name).bind registry.target = registry.forks[place + 1]? := by
  rcases Nat.lt_trichotomy place registry.fixed.length with before | rfl | behind
  · rw [forks_getElem?_of_lt before] at here
    obtain ⟨fork, hfork, rfl⟩ := Option.map_eq_some_iff.mp here
    rw [show (Fork.fixed fork).name = fork.name from rfl, sound.link?_fixed hfork, linkAt]
    by_cases more : place + 1 < registry.fixed.length
    · rw [if_pos more, forks_getElem?_of_lt more]
      rfl
    · have last : place + 1 = registry.fixed.length := by omega
      rw [if_neg more, last, forks_getElem?_length]
      cases hcandidate : registry.candidate with
      | none => rfl
      | some candidate =>
          rw [Option.isSome_some, if_pos rfl, Option.bind_some, target, hcandidate]
  · rw [forks_getElem?_length] at here
    obtain ⟨candidate, hcandidate, rfl⟩ := Option.map_eq_some_iff.mp here
    rw [show (Fork.candidate candidate).name = candidate.name from rfl,
      sound.link?_candidate hcandidate, forks_getElem?_of_length_lt (Nat.lt_succ_self _)]
    rfl
  · rw [forks_getElem?_of_length_lt behind] at here
    cases here

/-- The link out of a fork leads to the first of those listed behind it. -/
theorem Sound.follows (sound : registry.Sound) {passed coming : List (Fork ρ)} {current : Fork ρ}
    (order : registry.forks = passed ++ current :: coming) :
    (registry.link? current.name).bind registry.target = coming.head? := by
  have here : registry.forks[passed.length]? = some current := by simp [order]
  rw [sound.target_link? here, order, List.getElem?_append_right (Nat.le_add_right _ 1),
    Nat.add_sub_cancel_left, List.getElem?_cons_succ, List.head?_eq_getElem?]

-- ================================================================== a boundary

variable {boundary : EpochBoundary} {history after : History}

/-- A boundary that enacts the candidate closes its epoch, ahead of one in the
window. -/
theorem run_enactsCandidate_window (registry : Registry ρ) (boundary : EpochBoundary)
    (history : History) :
    ∃ enacts, (registry.enactsCandidate boundary).run history = (.ok enacts, history)
      ∧ (enacts = true → boundary.closes = true ∧ ∀ candidate,
          registry.candidate = some candidate →
            candidate.schedule.windowContains boundary.epoch.next = true) := by
  cases closes : boundary.closes with
  | false => exact ⟨false, run_enactsCandidate_of_open closes, nofun⟩
  | true =>
      cases hcandidate : registry.candidate with
      | none =>
          refine ⟨false, ?_, nofun⟩
          unfold enactsCandidate
          rw [hcandidate]
          rfl
      | some candidate =>
          cases voted : boundary.results.find? fun result => result.candidate == candidate.id with
          | none => exact ⟨false, run_enactsCandidate_of_silent hcandidate voted, nofun⟩
          | some current =>
              refine ⟨_, run_enactsCandidate_voted hcandidate closes voted history, ?_⟩
              intro enacts
              refine ⟨rfl, fun other hother => ?_⟩
              cases hother
              exact (Bool.and_eq_true_iff.mp enacts).1

/-- What it takes for a boundary to make a fork active: the link out of the
current one leads to it, the boundary closes its epoch, and the fork is timely
at the next one. -/
structure MovesOn (registry : Registry ρ) (current : String) (boundary : EpochBoundary)
    (fork : Fork ρ) : Prop where
  leads : (registry.link? current).bind registry.target = some fork
  closes : boundary.closes = true
  timely : fork.TimelyAt boundary.epoch.next

/-- Only such a fork is made active. -/
theorem run_enacted?_movesOn (registry : Registry ρ) (current : String)
    (boundary : EpochBoundary) (history : History) :
    ∃ enacted, (registry.enacted? current boundary).run history = (.ok enacted, history)
      ∧ ∀ fork, enacted = some fork → registry.MovesOn current boundary fork := by
  have nothing : ∀ fork, none = some fork → registry.MovesOn current boundary fork := by
    intro fork hfork
    cases hfork
  cases hlink : registry.link? current with
  | none =>
      rw [enacted?, hlink]
      exact ⟨none, rfl, nothing⟩
  | some link =>
      cases link with
      -- the next fixed fork, if a boundary closes and its epoch has come
      | fixed index =>
          rw [enacted?, hlink]
          dsimp only
          cases hindex : registry.fixed[index]? with
          | none => exact ⟨none, rfl, nothing⟩
          | some fork =>
              dsimp only
              split
              · next due =>
                  obtain ⟨closes, reached⟩ := Bool.and_eq_true_iff.mp due
                  refine ⟨some (.fixed fork), rfl, fun other hother => ?_⟩
                  cases hother
                  refine ⟨?_, closes, by simpa [Fork.TimelyAt] using reached⟩
                  rw [hlink, Option.bind_some, target, hindex]
                  rfl
              · exact ⟨none, rfl, nothing⟩
      -- the candidate, if its votes enact it inside the window
      | candidate =>
          obtain ⟨candidate, hcandidate⟩ := exists_candidate_of_link? hlink
          obtain ⟨enacts, hrun, window⟩ := registry.run_enactsCandidate_window boundary history
          refine ⟨_, run_enacted?_of_link hlink hrun, ?_⟩
          cases enacts with
          | false => exact nothing
          | true =>
              obtain ⟨closes, within⟩ := window rfl
              rw [if_pos rfl, hcandidate]
              intro fork hfork
              cases hfork
              refine ⟨?_, closes, within candidate hcandidate⟩
              rw [hlink, Option.bind_some, target, hcandidate]
              rfl

/-- What a boundary makes active is recorded for the next epoch. -/
theorem of_processBoundary {current : String} {fork : Fork ρ}
    (h : (registry.processBoundary current boundary).run history = (.ok (some fork), after)) :
    registry.MovesOn current boundary fork
      ∧ after.activations[boundary.epoch.next]? = some fork.name := by
  have known := known_of_processBoundary h
  by_cases closes : boundary.closes = true
  · obtain ⟨enacted, hrun, movesOn⟩ := registry.run_enacted?_movesOn current boundary history
    rw [run_processBoundary_of_enacted known closes hrun] at h
    obtain ⟨rfl, -, recorded⟩ := of_recordEnacted h
    exact ⟨movesOn fork rfl, recorded fork rfl⟩
  · rw [run_processBoundary_of_open known (Bool.eq_false_iff.mpr closes)] at h
    cases h

/-- What becomes active is recorded where nothing was, or it is there already.
If that fails, nothing is recorded. -/
theorem activations_recordEnacted {epoch : Epoch} {enacted : Option (Fork ρ)}
    {outcome : Except ForkError (Option (Fork ρ))}
    (h : (recordEnacted epoch enacted).run history = (outcome, after)) :
    after.activations = history.activations ∨ ∃ fork, outcome = .ok (some fork)
      ∧ enacted = some fork ∧ history.activations[epoch]? = none
      ∧ after.activations = history.activations.insert epoch fork.name := by
  cases enacted with
  | none =>
      cases h
      exact .inl rfl
  | some fork =>
      simp only [recordEnacted] at h
      obtain ⟨cause, hrun⟩ | ⟨⟨⟩, middle, hrun, hanswer⟩ := run_bind_cases h
      · rw [run_bind_error hrun] at h
        cases h
        cases records_of_run hrun with
        | refused _ => exact .inl rfl
      · cases hanswer
        cases records_of_run hrun with
        | recorded hrecord =>
            rcases History.of_recordActivation hrecord with ⟨free, rfl⟩ | ⟨-, rfl⟩
            · exact .inr ⟨fork, rfl, rfl, free, rfl⟩
            · exact .inl rfl

/-- A boundary records the fork it answers, which is the one that the link out
of the current fork leads to, or nothing. -/
theorem activations_processBoundary {current : String}
    {outcome : Except ForkError (Option (Fork ρ))}
    (h : (registry.processBoundary current boundary).run history = (outcome, after)) :
    after.activations = history.activations ∨ ∃ fork, outcome = .ok (some fork)
      ∧ (registry.link? current).bind registry.target = some fork
      ∧ history.activations[boundary.epoch.next]? = none
      ∧ after.activations = history.activations.insert boundary.epoch.next fork.name := by
  by_cases unknown : (registry.byName? current).isNone = true
  · unfold processBoundary at h
    dsimp only at h
    rw [if_pos unknown] at h
    cases h
    exact .inl rfl
  · cases closes : boundary.closes with
    | false =>
        rw [run_processBoundary_of_open unknown closes] at h
        cases h
        exact .inl rfl
    | true =>
        obtain ⟨enacted, hrun, movesOn⟩ := registry.run_enacted?_movesOn current boundary history
        rw [run_processBoundary_of_enacted unknown closes hrun] at h
        have recorded := activations_recordEnacted h
        rw [History.activations_recordVotes] at recorded
        refine recorded.imp_right ?_
        rintro ⟨fork, answered, enacts, free, inserted⟩
        exact ⟨fork, answered, (movesOn fork enacts).leads, free, inserted⟩

/-- So a boundary keeps what is recorded, also if it fails. -/
theorem keeps_processBoundary {current : String} {outcome : Except ForkError (Option (Fork ρ))}
    (h : (registry.processBoundary current boundary).run history = (outcome, after)) {e : Epoch}
    {name : String} (there : history.activations[e]? = some name) :
    after.activations[e]? = some name := by
  obtain same | ⟨fork, -, -, free, recorded⟩ := activations_processBoundary h
  · rwa [same]
  · rw [recorded, Std.ExtTreeMap.getElem?_insert, if_neg]
    · exact there
    · rw [Std.LawfulEqCmp.compare_eq_iff_eq]
      rintro rfl
      rw [free] at there
      cases there

-- =================================================================== going on

section GoingOn

variable {σ : Type} [ActivationStore σ]

/-- Processes boundaries in order and goes on after failures. Answers each
boundary that made a fork active, with that fork, and the store in the end. -/
def carryOn (registry : Registry ρ) : Fork ρ → List EpochBoundary → σ →
    List (EpochBoundary × Fork ρ) × σ
  | _, [], store => ([], store)
  | current, boundary :: rest, store =>
      match (registry.processBoundary current.name boundary).run store with
      | (.ok (some fork), after) =>
          let (activated, final) := registry.carryOn fork rest after
          ((boundary, fork) :: activated, final)
      | (_, after) => registry.carryOn current rest after

/-- Each boundary makes at most one fork active. -/
theorem carryOn_sublist (registry : Registry ρ) (current : Fork ρ)
    (boundaries : List EpochBoundary) (store : σ) :
    ((registry.carryOn current boundaries store).1.map Prod.fst).Sublist boundaries := by
  induction boundaries generalizing current store with
  | nil => exact List.Sublist.refl _
  | cons boundary rest ih =>
      rw [carryOn]
      split
      · next fork after h => exact (ih fork after).cons_cons boundary
      · next after nothing h => exact (ih current after).cons boundary

end GoingOn

variable {current : Fork ρ}

/-- Going on keeps what is recorded. -/
theorem keeps_carryOn {boundaries : List EpochBoundary} {e : Epoch} {name : String}
    (there : history.activations[e]? = some name) :
    (registry.carryOn current boundaries history).2.activations[e]? = some name := by
  induction boundaries generalizing current history with
  | nil => exact there
  | cons boundary rest ih =>
      rw [carryOn]
      split
      · next fork after h => exact ih (keeps_processBoundary h there)
      · next after nothing h => exact ih (keeps_processBoundary h there)

/-- What became active was timely, and is recorded in the end. -/
theorem carryOn_recorded (registry : Registry ρ) (current : Fork ρ)
    (boundaries : List EpochBoundary) (history : History) :
    ∀ entry ∈ (registry.carryOn current boundaries history).1,
      entry.1.closes = true ∧ entry.2.TimelyAt entry.1.epoch.next
        ∧ (registry.carryOn current boundaries history).2.activations[entry.1.epoch.next]?
            = some entry.2.name := by
  induction boundaries generalizing current history with
  | nil => exact nofun
  | cons boundary rest ih =>
      rw [carryOn]
      split
      · next fork after h =>
          obtain ⟨movesOn, recorded⟩ := of_processBoundary h
          intro entry hentry
          rcases List.mem_cons.mp hentry with rfl | later
          · exact ⟨movesOn.closes, movesOn.timely, keeps_carryOn recorded⟩
          · exact ih fork after entry later
      · next after nothing h => exact ih current after

/-- What became active are the next forks of the schedule, in order. -/
theorem carryOn_prefix (sound : registry.Sound) {passed coming : List (Fork ρ)}
    (order : registry.forks = passed ++ current :: coming) (boundaries : List EpochBoundary)
    (history : History) :
    (registry.carryOn current boundaries history).1.map Prod.snd <+: coming := by
  induction boundaries generalizing current history passed coming with
  | nil => exact List.nil_prefix
  | cons boundary rest ih =>
      rw [carryOn]
      split
      · next fork after h =>
          have first : coming.head? = some fork := by
            rw [← sound.follows order]
            exact (of_processBoundary h).1.leads
          obtain ⟨coming, rfl⟩ := List.head?_eq_some_iff.mp first
          have order' : registry.forks = (passed ++ [current]) ++ fork :: coming := by
            rw [order, List.append_assoc, List.singleton_append]
          exact List.cons_prefix_cons.mpr ⟨rfl, ih order' after⟩
      · next after nothing h => exact ih order after

/-- Where the candidate is among the next forks, so is every fixed one. -/
theorem fixed_of_candidate {active : List (Fork ρ)} {later : List (FixedFork ρ)}
    {last : List (Fork ρ)} (follows : active <+: later.map .fixed ++ last)
    {candidate : CandidateFork ρ} (there : .candidate candidate ∈ active) {fork : FixedFork ρ}
    (hfork : fork ∈ later) : .fixed fork ∈ active := by
  rcases List.prefix_or_prefix_of_prefix follows (List.prefix_append _ _) with short | long
  · obtain ⟨other, -, hother⟩ := List.mem_map.mp (short.subset there)
    cases hother
  · exact long.subset (List.mem_map_of_mem hfork)

/-- Boundaries of ascending epochs lie ahead of ascending epochs. -/
theorem pairwise_next {boundaries : List EpochBoundary}
    (below : ∀ boundary ∈ boundaries, boundary.epoch < .last)
    (ascending : boundaries.Pairwise fun a b => a.epoch < b.epoch) :
    (boundaries.map fun boundary => boundary.epoch.next).Pairwise (· < ·) := by
  rw [List.pairwise_map]
  refine ascending.imp_of_mem fun {a b} ha hb hlt => ?_
  rw [Epoch.lt_def, Epoch.toNat_next_of_lt (below a ha), Epoch.toNat_next_of_lt (below b hb)]
  exact Nat.succ_lt_succ hlt

/-- Forks become active in the order of the schedule, none before its time.
However a ledger goes on from its first fork, over any store held in memory
and any boundaries: behind the first fork, the ones that become active are the
next ones of the schedule, none twice, and the candidate after every fixed
one; each becomes active by a boundary that closes its epoch, is timely at the
next one, and is on record there. If the epochs of the boundaries ascend, so
do those at which forks become active. -/
theorem active_in_order {forks : List (Fork ρ)} (created : create forks = .ok registry)
    {boundaries : List EpochBoundary} (below : ∀ boundary ∈ boundaries, boundary.epoch < .last)
    {activated : List (EpochBoundary × Fork ρ)} {final : History}
    (run : registry.carryOn (.fixed registry.genesis) boundaries history = (activated, final)) :
    .fixed registry.genesis :: activated.map Prod.snd <+: registry.forks
      ∧ (activated.map fun entry => entry.2.name).Nodup
      ∧ (∀ candidate, .candidate candidate ∈ activated.map Prod.snd →
          ∀ fork ∈ registry.later, .fixed fork ∈ activated.map Prod.snd)
      ∧ (∀ entry ∈ activated, entry.1 ∈ boundaries ∧ entry.1.closes = true
          ∧ entry.2.TimelyAt entry.1.epoch.next
          ∧ final.activations[entry.1.epoch.next]? = some entry.2.name)
      ∧ (boundaries.Pairwise (fun a b => a.epoch < b.epoch) →
          (activated.map fun entry => entry.1.epoch.next).Pairwise (· < ·)) := by
  have sound := sound_of_create created
  -- at the start nothing is behind the fork in force but genesis itself
  have order : registry.forks = [] ++ .fixed registry.genesis
      :: (registry.later.map .fixed ++ (registry.candidate.map .candidate).toList) := rfl
  have follows := carryOn_prefix sound order boundaries history
  have recorded := registry.carryOn_recorded (.fixed registry.genesis) boundaries history
  have among := registry.carryOn_sublist (.fixed registry.genesis) boundaries history
  rw [run] at follows recorded among
  have inOrder : .fixed registry.genesis :: activated.map Prod.snd <+: registry.forks :=
    List.cons_prefix_cons.mpr ⟨rfl, follows⟩
  refine ⟨inOrder, ?_, ?_, ?_, ?_⟩
  · have names := (inOrder.sublist.map Fork.name).nodup sound.names
    rw [List.map_cons, List.map_map] at names
    exact (List.nodup_cons.mp names).2
  · intro candidate hcandidate fork hfork
    exact fixed_of_candidate follows hcandidate hfork
  · intro entry hentry
    exact ⟨among.subset (List.mem_map_of_mem hentry), recorded entry hentry⟩
  · intro ascending
    have below' : ∀ boundary ∈ activated.map Prod.fst, boundary.epoch < .last :=
      fun boundary hboundary => below boundary (among.subset hboundary)
    have next := pairwise_next below' (ascending.sublist among)
    rwa [List.map_map] at next

/-- A candidate behind two fixed forks. -/
def halfBehindTwo : CandidateFork Unit :=
  ⟨"third", ⟨.clamp 5, .clamp 8, [⟨5000, .clamp 2⟩]⟩, ()⟩

/-- Two fixed forks and that candidate. -/
def threeForks : Registry Unit :=
  ⟨⟨"first", .genesis, ()⟩, [⟨"second", .clamp 3, ()⟩], some halfBehindTwo⟩

/-- Boundaries with gaps: one too early, one that closes nothing, one ahead of
an epoch that is taken, one that comes late, and two with votes. -/
def withGaps : List EpochBoundary := [
  ⟨.clamp 1, true, []⟩, ⟨.clamp 2, false, []⟩, ⟨.clamp 3, true, []⟩, ⟨.clamp 5, true, []⟩,
  ⟨.clamp 6, true, [⟨.clamp 7, halfBehindTwo.id, 6000⟩]⟩,
  ⟨.clamp 7, true, [⟨.clamp 8, halfBehindTwo.id, 5500⟩]⟩]

/-- A history that has a fork at the epoch after one of them. -/
def takenAtFour : History := History.empty.activate (.clamp 4) "other"

/-- Over these boundaries, the fixed fork and then the candidate become
active. -/
theorem fixed_then_candidate :
    ∃ activated final, threeForks.carryOn (.fixed threeForks.genesis) withGaps takenAtFour
        = (activated, final)
      ∧ activated.map (fun entry => (entry.1.epoch.next.toNat, entry.2.name))
        = [(6, "second"), (8, "third")]
      ∧ .fixed threeForks.genesis :: activated.map Prod.snd <+: threeForks.forks
      ∧ (activated.map fun entry => entry.1.epoch.next).Pairwise (· < ·) := by
  have created : create [.fixed ⟨"first", .genesis, ()⟩, .fixed ⟨"second", .clamp 3, ()⟩,
      .candidate halfBehindTwo] = .ok threeForks := rfl
  have active : (threeForks.carryOn (.fixed threeForks.genesis) withGaps takenAtFour).1.map
      (fun entry => (entry.1.epoch.next.toNat, entry.2.name))
        = [(6, "second"), (8, "third")] := by
    decide +kernel
  have below : ∀ boundary ∈ withGaps, boundary.epoch < .last := by decide
  have ascending : withGaps.Pairwise fun a b => a.epoch < b.epoch := by decide
  rcases run : threeForks.carryOn (.fixed threeForks.genesis) withGaps takenAtFour
    with ⟨activated, final⟩
  rw [run] at active
  obtain ⟨inOrder, -, -, -, ascends⟩ := active_in_order created below run
  exact ⟨activated, final, rfl, active, inOrder, ascends ascending⟩

end Registry

end LedgerCore
