/-
Recovery of a boundary that was cut short. A boundary writes twice: first the
votes it carries, then what becomes active. If only the first write was done,
the history is still one that startup accepts (`Tracks.consistent_recordVotes`):
it records nothing new, and the votes enact the candidate where they did
before, or at the next epoch. What startup adds to it is what the schedule and
the votes ask for at the next epoch, and that is what a whole boundary leaves.
-/
import LedgerCore.Proofs.Fork.Operation

namespace LedgerCore

namespace Registry

variable {ρ : Type} {registry : Registry ρ} {history : History} {boundary : EpochBoundary}
  {current : Fork ρ}

/-- The votes of a boundary leave an enactment where it is. -/
theorem enactment?_recordVotes (tallied : boundary.Tallied)
    (below : boundary.epoch.next < .last) (voted : history.Voted boundary.epoch) {epoch : Epoch}
    (h : registry.enactment? history = some epoch) :
    registry.enactment? (history.recordVotes boundary.results) = some epoch := by
  have below' := Epoch.lt_last_of_next below
  obtain ⟨candidate, hcandidate⟩ := exists_candidate_of_enactment? h
  exact enactment?_kept hcandidate voted (voted.recordVotes tallied below') below
    (fun e he => History.share?_tallied tallied below' candidate.id he) h

/-- What should be recorded should still be with the votes of a boundary. -/
theorem Scheduled.recordVotes (tallied : boundary.Tallied)
    (below : boundary.epoch.next < .last) (voted : history.Voted boundary.epoch) {e : Epoch}
    {name : String} (h : registry.Scheduled history boundary.epoch e name) :
    registry.Scheduled (history.recordVotes boundary.results) boundary.epoch.next e name := by
  have hnow := Nat.le_of_lt (Epoch.lt_next (Epoch.lt_last_of_next below))
  rcases h.mono hnow with hfixed | ⟨candidate, hcandidate, henacted, hname⟩
  · exact .inl hfixed
  · exact .inr ⟨candidate, hcandidate, enactment?_recordVotes tallied below voted henacted, hname⟩

namespace Tracks

/-- With the votes of a boundary alone, a tracked history is consistent at the
next epoch. -/
theorem consistent_recordVotes (tracks : registry.Tracks boundary.epoch current history)
    (sound : registry.Sound) (tallied : boundary.Tallied) (below : boundary.epoch.next < .last) :
    registry.Consistent (history.recordVotes boundary.results) boundary.epoch.next := by
  have below' := Epoch.lt_last_of_next below
  have consistent := tracks.consistent sound below'
  have same := history.activations_recordVotes boundary.results
  refine ⟨fun e name h => ?_, fun e name h => ?_, fun candidate epoch hcandidate h => ?_,
    fun candidate epoch _ _ h => ?_⟩
  · rw [same] at h
    exact Nat.le_trans (consistent.past e name h) (Nat.le_of_lt (Epoch.lt_next below'))
  · rw [same] at h
    exact consistent.allowed e name h
  · rw [same] at h
    exact enactment?_recordVotes tallied below tracks.voted
      (consistent.stored candidate epoch hcandidate h)
  · exact enactment?_le_of_voted (tracks.voted.recordVotes tallied below') below h

/-- A boundary adds to the votes it records what should be recorded at the
next epoch. -/
theorem adds_of_tracks (tracks : registry.Tracks boundary.epoch current history)
    (tallied : boundary.Tallied) (below : boundary.epoch.next < .last) {later : Fork ρ}
    {after : History} (hshares : after.shares = (history.recordVotes boundary.results).shares)
    (tracks' : registry.Tracks boundary.epoch.next later after) :
    (history.recordVotes boundary.results).Adds after
      (registry.Scheduled (history.recordVotes boundary.results) boundary.epoch.next) := by
  refine ⟨hshares, fun e name => ?_⟩
  rw [tracks'.recorded, Scheduled, enactment?_congr registry hshares, ← Scheduled,
    History.activations_recordVotes, tracks.recorded]
  exact (or_iff_right_of_imp (Scheduled.recordVotes tallied below tracks.voted)).symm

/-- Startup on the votes of a boundary alone leaves what the whole boundary
does. -/
theorem run_reconcile_recordVotes (tracks : registry.Tracks boundary.epoch current history)
    (sound : registry.Sound) (tallied : boundary.Tallied) (below : boundary.epoch.next < .last)
    {later : Fork ρ} {after : History}
    (hshares : after.shares = (history.recordVotes boundary.results).shares)
    (tracks' : registry.Tracks boundary.epoch.next later after) :
    (registry.reconcile (some boundary.epoch.next)).run (history.recordVotes boundary.results)
      = (.ok (), after) := by
  have consistent : registry.Consistent (history.recordVotes boundary.results)
      ((some boundary.epoch.next).getD .genesis) :=
    tracks.consistent_recordVotes sound tallied below
  obtain ⟨recovered, hrun, adds⟩ := Registry.run_reconcile sound consistent
  rw [hrun, adds.unique (tracks.adds_of_tracks tallied below hshares tracks')]

end Tracks

/-- If a ledger in operation stops within a boundary, after the votes were
recorded and before what became active was, the restart makes up for it: it
leaves the history that the whole boundary would have left. -/
theorem interrupted_boundary_recovers {forks : List (Fork ρ)}
    (created : create forks = .ok registry) {boundaries : List EpochBoundary}
    (passes : Passes .genesis boundaries boundary.epoch) (closes : boundary.closes = true)
    (tallied : boundary.Tallied) (below : boundary.epoch.next < .last) :
    ∃ current before enacted after,
      (registry.operate boundaries).run History.empty = (.ok current, before)
        ∧ (registry.processBoundary current.name boundary).run before = (.ok enacted, after)
        ∧ (registry.reconcile (some boundary.epoch.next)).run
            (before.recordVotes boundary.results) = (.ok (), after) := by
  have sound := sound_of_create created
  obtain ⟨start, hstart, tracked⟩ := run_reconcile_empty sound
  obtain ⟨current, before, hfollow, tracks⟩ :=
    run_follow sound passes (Epoch.lt_last_of_next below) tracked
  obtain ⟨enacted, after, hboundary, hshares, tracks'⟩ :=
    run_processBoundary sound closes tallied below tracks
  refine ⟨current, before, enacted, after, ?_, hboundary,
    tracks.run_reconcile_recordVotes sound tallied below hshares tracks'⟩
  unfold operate
  rw [run_bind_ok hstart, hfollow]

/-- A boundary that closes the second epoch with votes for `halfForTwo`. -/
def enactingBoundary : EpochBoundary := ⟨.clamp 1, true, [⟨.clamp 2, halfForTwo.id, 5500⟩]⟩

/-- A candidate that is enacted at a boundary of which only the votes got
through: reconciling up to the new epoch records the enactment, as the whole
boundary would have. -/
theorem interrupted_enactment_recovers :
    ∃ current before enacted after,
      (fixedAndCandidate.operate (votedTwice.take 2)).run History.empty = (.ok current, before)
        ∧ (fixedAndCandidate.processBoundary current.name enactingBoundary).run before
            = (.ok enacted, after)
        ∧ (fixedAndCandidate.reconcile (some (.clamp 2))).run
            (before.recordVotes enactingBoundary.results) = (.ok (), after)
        ∧ after.activations[(.clamp 2 : Epoch)]? = some "second" := by
  have created : create [.fixed ⟨"first", .genesis, ()⟩, .candidate halfForTwo]
      = .ok fixedAndCandidate := rfl
  have passes : Passes .genesis (votedTwice.take 2) (.clamp 1) := by
    refine .closing rfl rfl ⟨?_, ?_⟩ (.within rfl (.arrived _))
    all_goals decide
  have tallied : enactingBoundary.Tallied := ⟨by decide, by decide⟩
  obtain ⟨current, before, enacted, after, hrun, hboundary, hrecovered⟩ :=
    interrupted_boundary_recovers created passes rfl tallied (by decide)
  have computed : ((fixedAndCandidate.operate (votedTwice.take 2) >>= fun current =>
      fixedAndCandidate.processBoundary current.name enactingBoundary).run
        History.empty).2.activations[(.clamp 2 : Epoch)]? = some "second" := by decide +kernel
  rw [run_bind_ok hrun, hboundary] at computed
  exact ⟨current, before, enacted, after, hrun, hboundary, hrecovered, computed⟩

end Registry

end LedgerCore
