/-
A ledger in operation. It starts by reconciling an empty history, and then
passes boundaries in order under the fork that is current (`operate`); every
epoch is closed by one of them, and any others lie in between (`Passes`).

`Tracks` holds at the start (`run_reconcile_empty`), and each boundary keeps it
(`run_follow`). A history that is tracked is consistent and complete, so
reconciling it when the ledger restarts changes nothing, and the fork it has as
the active one is the current fork (`operation_reconciles`).
-/
import LedgerCore.Proofs.Fork.Boundary
import LedgerCore.Proofs.Fork.Startup

namespace LedgerCore

-- ================================================================== the passage

/-- The boundaries a ledger passes from one epoch to another: each epoch on
the way is closed by one, in order, and the others close nothing. -/
inductive Passes : Epoch → List EpochBoundary → Epoch → Prop
  | arrived (now : Epoch) : Passes now [] now
  | within {boundary : EpochBoundary} {rest : List EpochBoundary} {now stop : Epoch}
      (hopen : boundary.closes = false) (more : Passes now rest stop) :
      Passes now (boundary :: rest) stop
  | closing {boundary : EpochBoundary} {rest : List EpochBoundary} {now stop : Epoch}
      (closes : boundary.closes = true) (here : boundary.epoch = now)
      (tallied : boundary.Tallied) (more : Passes now.next rest stop) :
      Passes now (boundary :: rest) stop

/-- Boundaries lead to later epochs. -/
theorem Passes.le {now stop : Epoch} {boundaries : List EpochBoundary}
    (h : Passes now boundaries stop) : now ≤ stop := by
  induction h with
  | arrived now => exact Nat.le_refl _
  | within hopen more ih => exact ih
  | @closing boundary rest now stop closes here tallied more ih =>
      refine Nat.le_trans (Nat.le_min.mpr ⟨Nat.le_succ _, ?_⟩) ih
      exact Nat.le_of_lt_succ now.lt_limit

namespace Registry

variable {ρ σ : Type} [ActivationStore σ]

/-- Processes boundaries in order under the current fork, and answers the one
that is current in the end. -/
def follow (registry : Registry ρ) : Fork ρ → List EpochBoundary → Action σ (Fork ρ)
  | current, [] => return current
  | current, boundary :: rest => do
      let enacted ← registry.processBoundary current.name boundary
      registry.follow (enacted.getD current) rest

/-- Starts a ledger under its first fork and passes boundaries. -/
def operate (registry : Registry ρ) (boundaries : List EpochBoundary) : Action σ (Fork ρ) := do
  registry.reconcile (some .genesis)
  registry.follow (.fixed registry.genesis) boundaries

variable {registry : Registry ρ} {history : History} {now : Epoch} {current : Fork ρ}

-- ===================================================================== restarts

namespace Tracks

/-- A tracked history is consistent with the schedule. -/
theorem consistent (tracks : registry.Tracks now current history) (sound : registry.Sound)
    (below : now < .last) : registry.Consistent history now := by
  refine ⟨fun e name h => ?_, fun e name h => ?_, fun candidate epoch hcandidate h => ?_,
    fun candidate epoch _ _ h => enactment?_le_of_voted tracks.voted below h⟩
  · rcases (tracks.recorded e name).mp h with
      ⟨fork, -, hpassed, rfl, -⟩ | ⟨candidate, -, henacted, -⟩
    · exact hpassed
    · exact enactment?_le_of_voted tracks.voted below henacted
  · exact allows_of_scheduled ((tracks.recorded e name).mp h)
  · rcases (tracks.recorded _ _).mp (getElem?_of_recordedAt? h) with
      ⟨fork, hfork, -, -, hname⟩ | ⟨_, -, henacted, -⟩
    · exact absurd hname (sound.fixed_names.2 candidate hcandidate fork hfork)
    · exact henacted

/-- A restart leaves a tracked history as it is. -/
theorem run_reconcile (tracks : registry.Tracks now current history) (sound : registry.Sound)
    (below : now < .last) : (registry.reconcile (some now)).run history = (.ok (), history) := by
  have consistent : registry.Consistent history ((some now).getD .genesis) :=
    tracks.consistent sound below
  obtain ⟨after, hrun, adds⟩ := Registry.run_reconcile sound consistent
  have complete : history.Adds history (registry.Scheduled history ((some now).getD .genesis)) :=
    .refl fun e name => (tracks.recorded e name).mpr
  rw [hrun, adds.unique complete]

end Tracks

/-- The fork a tracked history has as the active one is the current fork. -/
theorem Tracks.activeAt? (tracks : registry.Tracks now current history) (sound : registry.Sound) :
    registry.activeAt? now history.activations = some current := by
  refine activeAt?_of_current sound tracks.current (fun e name => (tracks.recorded e name).mpr)
    (fun e name h => allows_of_scheduled ((tracks.recorded e name).mp h))
    fun candidate e hcandidate h => ?_
  rcases (tracks.recorded e candidate.name).mp h with
    ⟨fork, hfork, -, -, hname⟩ | ⟨_, -, henacted, -⟩
  · exact absurd hname (sound.fixed_names.2 candidate hcandidate fork hfork)
  · exact ⟨e, Nat.le_refl _, henacted⟩

-- ==================================================================== operation

/-- A ledger that starts on an empty history is tracked under its first
fork. -/
theorem run_reconcile_empty (sound : registry.Sound) :
    ∃ history, (registry.reconcile (some .genesis)).run History.empty = (.ok (), history)
      ∧ registry.Tracks .genesis (.fixed registry.genesis) history := by
  have voted : History.empty.Voted .genesis := fun _ _ _ => Std.ExtTreeMap.getElem?_empty
  have bare : ∀ (e : Epoch) name, History.empty.activations[e]? ≠ some name := by
    intro e name h
    rw [History.empty, Std.ExtTreeMap.getElem?_empty] at h
    cases h
  have hgenesis : registry.genesis ∈ registry.fixed := List.mem_cons_self
  have hstart : registry.genesis.epoch = .genesis := sound.starts
  have none_enacted : registry.enactment? History.empty = none :=
    enactment?_none_of_coming sound hgenesis (Nat.zero_le _) voted (by decide)
  -- nothing is on record, so nothing contradicts the schedule
  have consistent : registry.Consistent History.empty ((some Epoch.genesis).getD .genesis) := by
    refine ⟨fun e name h => absurd h (bare e name), fun e name h => absurd h (bare e name),
      fun candidate epoch _ h => absurd (getElem?_of_recordedAt? h) (bare epoch _), ?_⟩
    intro candidate epoch _ _ h
    rw [none_enacted] at h
    cases h
  obtain ⟨history, hrun, adds⟩ := run_reconcile sound consistent
  have same := enactment?_congr registry adds.shares
  refine ⟨history, hrun, fun id e hlt => ?_, fun e name => ?_, .fixed ⟨hgenesis, ?_, ?_⟩ ?_⟩
  · rw [History.share?, adds.shares]
    exact voted id e hlt
  · rw [adds.recorded, or_iff_right (bare e name), Scheduled, Scheduled, same]
    rfl
  · exact Nat.le_of_eq (congrArg Epoch.toNat hstart)
  · intro other _ hle
    rwa [hstart]
  · intro epoch h
    rw [same, none_enacted] at h
    cases h

/-- Passing boundaries keeps a ledger tracked, and none of them fails. -/
theorem run_follow (sound : registry.Sound) {boundaries : List EpochBoundary} {stop : Epoch}
    (passes : Passes now boundaries stop) (below : stop < .last)
    (tracks : registry.Tracks now current history) :
    ∃ current' history', (registry.follow current boundaries).run history
        = (.ok current', history') ∧ registry.Tracks stop current' history' := by
  induction passes generalizing current history with
  | arrived now => exact ⟨current, history, rfl, tracks⟩
  | within hopen more ih =>
      unfold follow
      rw [run_bind_ok (run_processBoundary_of_open (sound.known tracks.current.mem) hopen)]
      exact ih below tracks
  | closing closes here tallied more ih =>
      subst here
      have hnext := Nat.lt_of_le_of_lt more.le below
      obtain ⟨enacted, after, hrun, -, htracks⟩ :=
        run_processBoundary sound closes tallied hnext tracks
      unfold follow
      rw [run_bind_ok hrun]
      exact ih below htracks

/-- A ledger in operation never fails, and its history survives a restart: it
is reconciled without any change, and has the current fork as the active
one. -/
theorem operation_reconciles {forks : List (Fork ρ)} (created : create forks = .ok registry)
    {boundaries : List EpochBoundary} {stop : Epoch} (passes : Passes .genesis boundaries stop)
    (below : stop < .last) :
    ∃ current history, (registry.operate boundaries).run History.empty = (.ok current, history)
      ∧ (registry.reconcile (some stop)).run history = (.ok (), history)
      ∧ registry.activeAt? stop history.activations = some current := by
  have sound := sound_of_create created
  obtain ⟨start, hstart, tracks⟩ := run_reconcile_empty sound
  obtain ⟨current, history, hfollow, tracks'⟩ := run_follow sound passes below tracks
  refine ⟨current, history, ?_, tracks'.run_reconcile sound below, tracks'.activeAt? sound⟩
  unfold operate
  rw [run_bind_ok hstart, hfollow]

/-- Two closed epochs with enough votes for `halfForTwo`, and a boundary in
between. -/
def votedTwice : List EpochBoundary :=
  [⟨.genesis, true, [⟨.clamp 1, halfForTwo.id, 6000⟩]⟩, ⟨.clamp 1, false, []⟩,
    ⟨.clamp 1, true, [⟨.clamp 2, halfForTwo.id, 5500⟩]⟩]

/-- The candidate is enacted on the way, and still active after a restart. -/
theorem enacted_candidate_survives_restart :
    ∃ current history,
      (fixedAndCandidate.operate votedTwice).run History.empty = (.ok current, history)
      ∧ (fixedAndCandidate.reconcile (some (.clamp 2))).run history = (.ok (), history)
      ∧ fixedAndCandidate.activeAt? (.clamp 2) history.activations = some current
      ∧ current.name = "second" := by
  have created : create [.fixed ⟨"first", .genesis, ()⟩, .candidate halfForTwo]
      = .ok fixedAndCandidate := rfl
  have passes : Passes .genesis votedTwice (.clamp 2) := by
    refine .closing rfl rfl ⟨?_, ?_⟩ (.within rfl (.closing rfl rfl ⟨?_, ?_⟩ (.arrived _)))
    all_goals decide
  obtain ⟨current, history, hrun, hrestart, hactive⟩ :=
    operation_reconciles created passes (by decide)
  refine ⟨current, history, hrun, hrestart, hactive, ?_⟩
  have computed : ((fixedAndCandidate.operate votedTwice).run History.empty).1.toOption.map
      Fork.name = some "second" := by decide +kernel
  rw [hrun] at computed
  exact Option.some.inj computed

end Registry

end LedgerCore
