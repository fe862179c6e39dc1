/-
One boundary under a ledger in order. `Registry.Tracks` is what a ledger
keeps from boundary to boundary: votes for no later epoch, just the activations
that the schedule and the votes ask for, and the fork they call for as the
current one.

A boundary that closes an epoch moves this on by one epoch
(`run_processBoundary`). What it makes active is decided on the votes up to now
and the current result, while the schedule asks for it on the votes recorded
afterwards; `run_enacted?` shows that both are the same.
-/
import LedgerCore.Proofs.Fork.Current

namespace LedgerCore

namespace Registry

variable {ρ : Type} {registry : Registry ρ} {history after : History}
  {candidate : CandidateFork ρ} {now : Epoch}

-- ================================================================== the decision

section Decision

variable {boundary : EpochBoundary}

/-- A boundary enacts the candidate if it is due at the next epoch, on the
votes that are recorded then. -/
theorem run_enactsCandidate_tallied (hcandidate : registry.candidate = some candidate)
    (closes : boundary.closes = true) (tallied : boundary.Tallied)
    (below : boundary.epoch < .last) (voted : history.Voted boundary.epoch) :
    ∃ enacts, (registry.enactsCandidate boundary).run history = (.ok enacts, history)
      ∧ (enacts = true ↔
          candidate.DueAt (history.recordVotes boundary.results) boundary.epoch.next) := by
  have hnext := voted candidate.id _ (Epoch.lt_next below)
  have hshare := History.share?_recordVotes tallied.stamped tallied.distinct history candidate.id
  cases hfind : boundary.results.find? fun result => result.candidate == candidate.id with
  | none =>
      refine ⟨false, run_enactsCandidate_of_silent hcandidate hfind, iff_of_false nofun ?_⟩
      intro h
      obtain ⟨-, ⟨stake, hstake⟩, -⟩ := h
      rw [hshare, if_pos rfl, hfind, hnext] at hstake
      cases hstake
  | some result =>
      have hstamp := tallied.stamped result (List.mem_of_find?_eq_some hfind)
      refine run_enactsCandidate boundary hcandidate closes below hfind hstamp
        (voted candidate.id) fun e => ?_
      rw [hshare, hfind]
      rfl

/-- Behind the last fixed fork, a boundary decides on the candidate. -/
theorem opens_candidate (hcandidate : registry.candidate = some candidate)
    (tallied : boundary.Tallied) (below : boundary.epoch.next < .last)
    (voted : history.Voted boundary.epoch)
    (clear : ∀ fork ∈ registry.fixed, fork.epoch ≠ boundary.epoch.next)
    (before : registry.enactment? history = none) {enacts : Bool}
    (h : enacts = true ↔
      candidate.DueAt (history.recordVotes boundary.results) boundary.epoch.next) :
    registry.Opens history (history.recordVotes boundary.results) boundary.epoch
      (if enacts then registry.candidate.map .candidate else none) := by
  have below' := Epoch.lt_last_of_next below
  have enacted_iff : ∀ epoch, registry.enactment? (history.recordVotes boundary.results)
        = some epoch ↔ epoch = boundary.epoch.next
          ∧ candidate.DueAt (history.recordVotes boundary.results) boundary.epoch.next :=
    fun _ => enactment?_next hcandidate voted (voted.recordVotes tallied below') below
      (fun e he => History.share?_tallied tallied below' candidate.id he) before
  cases enacts with
  | true =>
      rw [hcandidate]
      exact .candidate hcandidate clear before ((enacted_iff _).mpr ⟨rfl, h.mp rfl⟩)
  | false =>
      refine .nothing clear (Eq.trans (Option.eq_none_iff_forall_ne_some.mpr ?_) before.symm)
      intro epoch hepoch
      exact Bool.false_ne_true (h.mpr ((enacted_iff epoch).mp hepoch).2)

/-- As long as a fixed fork is to come, no votes enact the candidate. -/
theorem enactment?_none_of_coming (sound : registry.Sound) {fork : FixedFork ρ}
    (hfork : fork ∈ registry.fixed) (coming : now ≤ fork.epoch) (voted : history.Voted now)
    (below : now < .last) : registry.enactment? history = none := by
  refine Option.eq_none_iff_forall_ne_some.mpr fun epoch hepoch => ?_
  have hle := Nat.le_trans (enactment?_le_of_voted voted below hepoch) coming
  exact Nat.not_lt.mpr hle (sound.lt_enactment hepoch hfork)

/-- Ahead of a fixed fork, a boundary waits for the epoch of that fork. -/
theorem opens_fixed (sound : registry.Sound) (tallied : boundary.Tallied)
    (below : boundary.epoch.next < .last) (voted : history.Voted boundary.epoch)
    {fork : FixedFork ρ} (hfork : fork ∈ registry.fixed)
    (coming : boundary.epoch.next ≤ fork.epoch)
    (first : ∀ other ∈ registry.fixed, other.epoch = boundary.epoch.next →
      fork.epoch ≤ other.epoch)
    (before : registry.enactment? history = none) :
    registry.Opens history (history.recordVotes boundary.results) boundary.epoch
      (if fork.epoch ≤ boundary.epoch.next then some (.fixed fork) else none) := by
  have voted' := voted.recordVotes tallied (Epoch.lt_last_of_next below)
  have kept := (enactment?_none_of_coming sound hfork coming voted' below).trans before.symm
  split
  · next hdue => exact .fixed hfork (Epoch.ext (Nat.le_antisymm hdue coming)) kept
  · next hwait =>
      refine .nothing (fun other hother hnext => hwait ?_) kept
      rw [← hnext]
      exact first other hother hnext

/-- Behind the last fixed fork, a boundary makes the candidate active if it
enacts it. -/
theorem run_enacted?_of_link {current : String} (hlink : registry.link? current = some .candidate)
    {enacts : Bool}
    (h : (registry.enactsCandidate boundary).run history = (.ok enacts, history)) :
    (registry.enacted? current boundary).run history
      = (.ok (if enacts then registry.candidate.map .candidate else none), history) := by
  rw [enacted?, hlink]
  dsimp only
  rw [run_bind_ok h]
  cases enacts <;> rfl

/-- Under a fixed fork, a boundary looks to the next fixed fork or, where there
is none, to the candidate. -/
theorem run_enacted?_of_fixed (sound : registry.Sound) (closes : boundary.closes = true)
    (tallied : boundary.Tallied) (below : boundary.epoch.next < .last)
    (voted : history.Voted boundary.epoch) {fork : FixedFork ρ}
    (latest : registry.Latest boundary.epoch fork)
    (before : registry.enactment? history = none) :
    ∃ enacted, (registry.enacted? fork.name boundary).run history = (.ok enacted, history)
      ∧ registry.Opens history (history.recordVotes boundary.results) boundary.epoch enacted := by
  have below' := Epoch.lt_last_of_next below
  have hlater : ∀ other ∈ registry.fixed, other.epoch = boundary.epoch.next →
      fork.epoch < other.epoch := by
    intro other _ hnext
    rw [hnext]
    exact Nat.lt_of_le_of_lt latest.passed (Epoch.lt_next below')
  rcases sound.link?_of_mem latest.mem with
    ⟨index, next, hlink, hindex, hfollows⟩ | ⟨hlink, hlast⟩
  · -- another fixed fork follows, due now or still to come
    have hmem := List.mem_of_getElem? hindex
    have coming : boundary.epoch.next ≤ next.epoch := by
      refine (Epoch.next_le_iff below').mpr (Nat.lt_of_not_le fun hle => ?_)
      exact Nat.not_lt.mpr (latest.last next hmem hle) ((hfollows next hmem).mpr (Nat.le_refl _))
    refine ⟨_, ?_, opens_fixed sound tallied below voted hmem coming (fun other hother hnext =>
      (hfollows other hother).mp (hlater other hother hnext)) before⟩
    rw [enacted?, hlink]
    dsimp only
    rw [hindex]
    dsimp only
    rw [closes, Bool.true_and]
    by_cases hdue : next.epoch ≤ boundary.epoch.next
    · rw [if_pos hdue, if_pos (decide_eq_true hdue)]
      rfl
    · rw [if_neg hdue, if_neg (by simpa using hdue)]
      rfl
  · -- it is the last fixed one, so a candidate follows or nothing does
    have clear : ∀ other ∈ registry.fixed, other.epoch ≠ boundary.epoch.next :=
      fun other hother hnext => Nat.not_lt.mpr (hlast other hother) (hlater other hother hnext)
    cases hcandidate : registry.candidate with
    | none =>
        rw [hcandidate] at hlink
        refine ⟨none, by rw [enacted?, hlink]; rfl, .nothing clear ?_⟩
        rw [enactment?_of_candidate_none hcandidate, enactment?_of_candidate_none hcandidate]
    | some candidate =>
        rw [hcandidate] at hlink
        obtain ⟨enacts, hrun, hdue⟩ :=
          run_enactsCandidate_tallied hcandidate closes tallied below' voted
        exact ⟨_, run_enacted?_of_link hlink hrun,
          opens_candidate hcandidate tallied below voted clear before hdue⟩

/-- Under the candidate nothing more becomes active. -/
theorem run_enacted?_of_candidate (sound : registry.Sound) (tallied : boundary.Tallied)
    (below : boundary.epoch.next < .last) (voted : history.Voted boundary.epoch)
    (listed : registry.candidate = some candidate) {epoch : Epoch}
    (enacted : registry.enactment? history = some epoch) (passed : epoch ≤ boundary.epoch) :
    (registry.enacted? candidate.name boundary).run history = (.ok none, history)
      ∧ registry.Opens history (history.recordVotes boundary.results) boundary.epoch none := by
  have below' := Epoch.lt_last_of_next below
  refine ⟨?_, .nothing (fun fork hfork hnext => ?_) ?_⟩
  · rw [enacted?, sound.link?_candidate listed]
    rfl
  · have hlt := sound.lt_enactment enacted hfork
    rw [hnext] at hlt
    exact Nat.not_lt.mpr passed (Nat.lt_trans (Epoch.lt_next below') hlt)
  · rw [enacted]
    exact enactment?_kept listed voted (voted.recordVotes tallied below') below
      (fun e he => History.share?_tallied tallied below' candidate.id he) enacted

/-- Under the current fork, a boundary that closes its epoch makes active what
the votes recorded with it call for at the next one. -/
theorem run_enacted? (sound : registry.Sound) (closes : boundary.closes = true)
    (tallied : boundary.Tallied) (below : boundary.epoch.next < .last)
    (voted : history.Voted boundary.epoch) {current : Fork ρ}
    (hcurrent : registry.Current history boundary.epoch current) :
    ∃ enacted, (registry.enacted? current.name boundary).run history = (.ok enacted, history)
      ∧ registry.Opens history (history.recordVotes boundary.results) boundary.epoch enacted := by
  cases hcurrent with
  | fixed latest quiet =>
      refine run_enacted?_of_fixed sound closes tallied below voted latest ?_
      refine Option.eq_none_iff_forall_ne_some.mpr fun epoch hepoch => ?_
      have hle := enactment?_le_of_voted voted (Epoch.lt_last_of_next below) hepoch
      exact Nat.not_lt.mpr hle (quiet epoch hepoch)
  | candidate listed enacted passed =>
      exact ⟨none, run_enacted?_of_candidate sound tallied below voted listed enacted passed⟩

/-- A boundary that does not close its epoch makes nothing active. -/
theorem run_enacted?_of_open (registry : Registry ρ) (history : History) (current : String)
    (hopen : boundary.closes = false) :
    (registry.enacted? current boundary).run history = (.ok none, history) := by
  unfold enacted?
  cases registry.link? current with
  | none => rfl
  | some link =>
      cases link with
      | fixed index =>
          dsimp only
          cases registry.fixed[index]? with
          | none => rfl
          | some fork =>
              dsimp only
              rw [hopen, Bool.false_and]
              rfl
      | candidate =>
          dsimp only
          rw [run_bind_ok (run_enactsCandidate_of_open hopen)]
          rfl

-- ==================================================================== tracking

/-- What a ledger in order keeps from boundary to boundary. -/
structure Tracks (registry : Registry ρ) (now : Epoch) (current : Fork ρ) (history : History) :
    Prop where
  voted : history.Voted now
  /-- Just what should be recorded is. -/
  recorded : ∀ e name, history.activations[e]? = some name ↔
    registry.Scheduled history now e name
  current : registry.Current history now current

/-- The end of a boundary, once it is decided what becomes active. -/
def recordEnacted (epoch : Epoch) (enacted : Option (Fork ρ)) :
    Action History (Option (Fork ρ)) := do
  if let some fork := enacted then
    onStore (ActivationStore.recordActivation epoch fork.name)
  return enacted

/-- In an allowed history, what becomes active can be recorded where it is
allowed. -/
theorem run_recordEnacted (sound : registry.Sound) (allowed : registry.Allowed history)
    {epoch : Epoch} {enacted : Option (Fork ρ)}
    (hallows : ∀ fork, enacted = some fork → registry.allows epoch fork.name = true) :
    ∃ after, (recordEnacted epoch enacted).run history = (.ok enacted, after)
      ∧ history.Adds after fun e name =>
          ∃ fork, enacted = some fork ∧ epoch = e ∧ fork.name = name := by
  unfold recordEnacted
  cases enacted with
  | none => exact ⟨history, rfl, .refl (by simp)⟩
  | some fork =>
      obtain ⟨after, hrun, adds⟩ := run_recordActivation sound allowed (hallows fork rfl)
      refine ⟨after, ?_, adds.congr (by simp)⟩
      dsimp only
      rw [run_bind_ok hrun]
      rfl

/-- A boundary that closes its epoch decides on the votes so far, and records
the votes it carries before what becomes active. -/
theorem run_processBoundary_of_enacted {current : String}
    (known : ¬ (registry.byName? current).isNone = true) (closes : boundary.closes = true)
    {enacted : Option (Fork ρ)}
    (henacted : (registry.enacted? current boundary).run history = (.ok enacted, history)) :
    (registry.processBoundary current boundary).run history
      = (recordEnacted boundary.epoch.next enacted).run
          (history.recordVotes boundary.results) := by
  have hvotes : (onStore (ActivationStore.recordVotes boundary.results)).run history
      = (.ok (), history.recordVotes boundary.results) := rfl
  unfold processBoundary
  dsimp only
  rw [if_neg known, run_bind_ok henacted, closes, Bool.true_and]
  cases hresults : boundary.results with
  | nil => rfl
  | cons result rest =>
      rw [hresults] at hvotes
      rw [List.isEmpty_cons, Bool.not_false, if_pos rfl, run_bind_ok hvotes]
      rfl

/-- A boundary that closes its epoch moves the ledger on by one epoch. -/
theorem run_processBoundary (sound : registry.Sound) (closes : boundary.closes = true)
    (tallied : boundary.Tallied) (below : boundary.epoch.next < .last) {current : Fork ρ}
    (tracks : registry.Tracks boundary.epoch current history) :
    ∃ enacted after, (registry.processBoundary current.name boundary).run history
        = (.ok enacted, after)
      ∧ after.shares = (history.recordVotes boundary.results).shares
      ∧ registry.Tracks boundary.epoch.next (enacted.getD current) after := by
  have below' := Epoch.lt_last_of_next below
  have known := sound.known tracks.current.mem
  obtain ⟨enacted, hrun, opens⟩ :=
    run_enacted? sound closes tallied below tracks.voted tracks.current
  have scheduled_iff : ∀ e name,
      registry.Scheduled (history.recordVotes boundary.results) boundary.epoch.next e name ↔
        registry.Scheduled history boundary.epoch e name
          ∨ ∃ fork, enacted = some fork ∧ boundary.epoch.next = e ∧ fork.name = name :=
    fun _ _ => opens.scheduled_iff sound below'
  have recorded : ∀ e name, (history.recordVotes boundary.results).activations[e]? = some name ↔
      registry.Scheduled history boundary.epoch e name := by
    intro e name
    rw [History.activations_recordVotes]
    exact tracks.recorded e name
  -- its slot is free, as the schedule allows one fork for each epoch
  obtain ⟨after, hafter, adds⟩ := run_recordEnacted sound
    (fun e name h => allows_of_scheduled ((recorded e name).mp h))
    fun fork hfork => allows_of_scheduled ((scheduled_iff _ _).mpr (.inr ⟨fork, hfork, rfl, rfl⟩))
  refine ⟨enacted, after, (run_processBoundary_of_enacted known closes hrun).trans hafter,
    adds.shares, ?_, fun e name => ?_, ?_⟩
  · intro id e hlt
    rw [History.share?, adds.shares]
    exact tracks.voted.recordVotes tallied below' id e hlt
  · rw [adds.recorded, recorded, ← scheduled_iff, Scheduled, Scheduled,
      enactment?_congr registry adds.shares]
  · exact (opens.current sound below' tracks.voted tracks.current).congr adds.shares

/-- A boundary that does not close its epoch changes nothing. -/
theorem run_processBoundary_of_open {current : String}
    (known : ¬ (registry.byName? current).isNone = true) (hopen : boundary.closes = false) :
    (registry.processBoundary current boundary).run history = (.ok none, history) := by
  unfold processBoundary
  dsimp only
  rw [if_neg known, run_bind_ok (run_enacted?_of_open registry history current hopen), hopen]
  rfl

end Decision

end Registry

end LedgerCore
