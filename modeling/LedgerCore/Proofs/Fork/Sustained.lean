/-
What enacts the candidate at a boundary, without counters. The boundary reads
the recorded results from the longest span before the next epoch on and counts
them with its own behind them; counters begin anew after a gap, and those of a
row that ends elsewhere are dropped. All of it comes down to one condition
(`CandidateFork.SustainedBy`): the result is for the next epoch, and for some
threshold it and the results recorded for the epochs right before are enough.

# A result for another epoch

`run_enactsCandidate` covers a current result that is for the next epoch. One
that is not is read all the same, behind results none of which is past the next
epoch, so the row ends with it, at the wrong epoch, and counts for nothing
(`Threshold.sustained_of_stale`).

# Other candidates

A boundary reads the results of the candidate only, its own as well as the
recorded ones, so the decision is the same wherever these are the same
(`run_enactsCandidate_congr`).
-/
import LedgerCore.Proofs.Fork.Repetition

namespace LedgerCore

variable {ρ : Type}

-- ================================================================ stale results

namespace Threshold

variable {thresholds : List Threshold} {target : Epoch}

/-- Results that end elsewhere count for nothing. -/
theorem sustained_of_stale {read : List VotingResult} {last : VotingResult}
    (passed : ∀ result ∈ read, result.epoch ≤ target) (stale : last.epoch ≠ target) :
    sustained thresholds target (read ++ [last]) = noCounts thresholds := by
  cases read with
  | nil => exact if_neg stale
  | cons first rest =>
      rw [List.cons_append, sustained, countUpTo_concat last passed]
      exact if_neg stale

/-- Before any result, no threshold is passed. -/
theorem anyPassed_noCounts (asked : ∀ threshold ∈ thresholds, 0 < threshold.epochs.toNat) :
    anyPassed thresholds (noCounts thresholds) = false := by
  induction thresholds with
  | nil => rfl
  | cons threshold rest ih =>
      have hstep : anyPassed (threshold :: rest) (noCounts (threshold :: rest))
          = (decide (threshold.epochs ≤ .none) || anyPassed rest (noCounts rest)) := rfl
      rw [hstep, ih fun other hother => asked other (List.mem_cons_of_mem _ hother),
        Bool.or_false, decide_eq_false_iff_not]
      exact Nat.not_le.mpr (asked threshold List.mem_cons_self)

end Threshold

-- ============================================================== carrying votes on

/-- A result of the candidate carries on what is recorded for the epochs right
before its own: some threshold is met by it and, for each of the other epochs
that the threshold asks for, by the result that is recorded there. None of
these epochs may lie before the first. -/
def CandidateFork.CarriedOn (candidate : CandidateFork ρ) (history : History)
    (current : VotingResult) : Prop :=
  ∃ threshold ∈ candidate.schedule.thresholds, threshold.isMetBy current.stake = true
    ∧ ∀ back, 0 < back → back < threshold.epochs.toNat →
        back ≤ current.epoch.toNat
          ∧ history.Met candidate.id threshold (current.epoch.toNat - back)

/-- A boundary carries the votes for the candidate into its window: it closes
its epoch, and its first result for the candidate is for the epoch that follows
and carries on what is recorded. -/
structure CandidateFork.SustainedBy (candidate : CandidateFork ρ) (history : History)
    (boundary : EpochBoundary) : Prop where
  closes : boundary.closes = true
  opened : candidate.schedule.minEpoch ≤ boundary.epoch.next
  lasting : boundary.epoch.next ≤ candidate.schedule.maxEpoch
  voted : ∃ current,
    boundary.results.find? (fun result => result.candidate == candidate.id) = some current
      ∧ current.epoch = boundary.epoch.next ∧ candidate.CarriedOn history current

namespace CandidateFork

variable {candidate : CandidateFork ρ} {history after : History} {current : VotingResult}
  {threshold : Threshold}

variable (threshold) in
/-- What meets a threshold once the result is recorded as well: for its epoch
the result, and for the epochs before what met it already. -/
theorem met_counted
    (counted : ∀ e, after.share? candidate.id e
      = if e = current.epoch then some current.stake else history.share? candidate.id e) :
    (after.Met candidate.id threshold current.epoch.toNat
        ↔ threshold.isMetBy current.stake = true)
      ∧ ∀ epoch < current.epoch.toNat, after.Met candidate.id threshold epoch
          ↔ history.Met candidate.id threshold epoch := by
  constructor
  · constructor
    · intro h
      obtain ⟨e, he, stake, hshare, hmet⟩ := h
      rw [counted, if_pos (Epoch.ext he)] at hshare
      cases hshare
      exact hmet
    · intro hmet
      exact ⟨current.epoch, rfl, current.stake, by rw [counted, if_pos rfl], hmet⟩
  · intro epoch hlt
    have same : ∀ e : Epoch, e.toNat = epoch →
        after.share? candidate.id e = history.share? candidate.id e := by
      intro e he
      rw [counted, if_neg]
      rintro rfl
      exact Nat.ne_of_lt hlt he.symm
    exact ⟨fun h => h.congr fun e he => (same e he).symm, fun h => h.congr same⟩

/-- Once the result is recorded as well, the votes are sustained where it
carries them on. -/
theorem sustained_iff_carriedOn
    (asked : ∀ threshold ∈ candidate.schedule.thresholds, 0 < threshold.epochs.toNat)
    (counted : ∀ e, after.share? candidate.id e
      = if e = current.epoch then some current.stake else history.share? candidate.id e) :
    candidate.schedule.Sustained after candidate.id current.epoch
      ↔ candidate.CarriedOn history current := by
  refine exists_congr fun threshold => and_congr_right fun hmem => ?_
  obtain ⟨here, before⟩ := met_counted threshold counted
  constructor
  · intro h
    refine ⟨here.mp (h 0 (asked threshold hmem)).2, fun back hpos hback => ?_⟩
    obtain ⟨hle, hmet⟩ := h back hback
    exact ⟨hle, (before _ (Nat.sub_lt_of_pos_le hpos hle)).mp hmet⟩
  · intro h back hback
    obtain ⟨hmet, hearlier⟩ := h
    rcases Nat.eq_zero_or_pos back with rfl | hpos
    · exact ⟨Nat.zero_le _, here.mpr hmet⟩
    · obtain ⟨hle, hmet⟩ := hearlier back hpos hback
      exact ⟨hle, (before _ (Nat.sub_lt_of_pos_le hpos hle)).mpr hmet⟩

/-- The result that sustains the votes is the first one of the candidate. -/
theorem SustainedBy.of_first {boundary : EpochBoundary}
    (h : candidate.SustainedBy history boundary)
    (voted : boundary.results.find? (fun result => result.candidate == candidate.id)
      = some current) :
    current.epoch = boundary.epoch.next ∧ candidate.CarriedOn history current := by
  obtain ⟨first, hfirst, stamped, carried⟩ := h.voted
  obtain rfl : current = first := Option.some.inj (voted.symm.trans hfirst)
  exact ⟨stamped, carried⟩

end CandidateFork

-- ============================================================= other candidates

/-- A range query answers the same where the results of its candidate are. -/
theorem History.votes_congr {history elsewhere : History} {id : CandidateId}
    (same : ∀ e, elsewhere.share? id e = history.share? id e) (start stop : Epoch) :
    elsewhere.votes start stop id = history.votes start stop id := by
  refine Ascending.ext (votes_ascending ..) (votes_ascending ..) fun result => ?_
  rw [mem_votes_iff, mem_votes_iff, ← share?, ← share?, same]

namespace Registry

variable {registry : Registry ρ} {history : History} {candidate : CandidateFork ρ}
  {boundary : EpochBoundary}

/-- A boundary decides by the results of the candidate only. -/
theorem run_enactsCandidate_congr (hcandidate : registry.candidate = some candidate)
    {enacts : Bool} (h : (registry.enactsCandidate boundary).run history = (.ok enacts, history))
    {other : EpochBoundary} {elsewhere : History} (epoch : other.epoch = boundary.epoch)
    (closes : other.closes = boundary.closes)
    (carried : other.results.filter (fun result => result.candidate == candidate.id)
      = boundary.results.filter fun result => result.candidate == candidate.id)
    (recorded : ∀ e, elsewhere.share? candidate.id e = history.share? candidate.id e) :
    (registry.enactsCandidate other).run elsewhere = (.ok enacts, elsewhere) := by
  have first : other.results.find? (fun result => result.candidate == candidate.id)
      = boundary.results.find? fun result => result.candidate == candidate.id := by
    rw [← List.head?_filter, carried, List.head?_filter]
  cases hcloses : boundary.closes with
  | false =>
      rw [run_enactsCandidate_of_open hcloses] at h
      cases h
      exact run_enactsCandidate_of_open (closes.trans hcloses)
  | true =>
      cases hfind : boundary.results.find? fun result => result.candidate == candidate.id with
      | none =>
          rw [run_enactsCandidate_of_silent hcandidate hfind] at h
          cases h
          exact run_enactsCandidate_of_silent hcandidate (first.trans hfind)
      | some current =>
          have read : votesBefore candidate elsewhere other
              = votesBefore candidate history boundary := by
            rw [votesBefore, epoch]
            exact History.votes_congr recorded ..
          rw [run_enactsCandidate_voted hcandidate hcloses hfind] at h
          cases h
          rw [run_enactsCandidate_voted hcandidate (closes.trans hcloses) (first.trans hfind),
            epoch, read]

-- ================================================================== the decision

/-- The results read at a boundary are not past the epoch that follows. -/
theorem epoch_le_of_mem_votesBefore (below : boundary.epoch < .last)
    (past : ∀ e, boundary.epoch < e → history.share? candidate.id e = none)
    {result : VotingResult} (h : result ∈ votesBefore candidate history boundary) :
    result.epoch ≤ boundary.epoch.next := by
  obtain ⟨-, -, -, hshare⟩ := History.mem_votes_iff.mp h
  refine Nat.le_of_not_lt fun hlt => ?_
  cases (past result.epoch (Nat.lt_trans (Epoch.lt_next below) hlt)).symm.trans hshare

/-- A result for another epoch than the one that follows enacts nothing. -/
theorem run_enactsCandidate_of_stale (sound : registry.Sound)
    (hcandidate : registry.candidate = some candidate) (closes : boundary.closes = true)
    (below : boundary.epoch < .last) {current : VotingResult}
    (voted : boundary.results.find? (fun result => result.candidate == candidate.id)
      = some current)
    (stale : current.epoch ≠ boundary.epoch.next)
    (past : ∀ e, boundary.epoch < e → history.share? candidate.id e = none) :
    (registry.enactsCandidate boundary).run history = (.ok false, history) := by
  rw [run_enactsCandidate_voted hcandidate closes voted,
    Threshold.sustained_of_stale (fun _ => epoch_le_of_mem_votesBefore below past) stale,
    Threshold.anyPassed_noCounts (sound.candidate candidate hcandidate).epochs_pos,
    Bool.and_false]

/-- A boundary that closes its epoch with a result for the candidate, whatever
epoch the result is for, enacts it exactly if the votes are sustained. -/
theorem run_enactsCandidate_of_voted (sound : registry.Sound)
    (hcandidate : registry.candidate = some candidate) (closes : boundary.closes = true)
    (below : boundary.epoch < .last) {current : VotingResult}
    (voted : boundary.results.find? (fun result => result.candidate == candidate.id)
      = some current)
    (past : ∀ e, boundary.epoch < e → history.share? candidate.id e = none) :
    ∃ enacts, (registry.enactsCandidate boundary).run history = (.ok enacts, history)
      ∧ (enacts = true ↔ candidate.SustainedBy history boundary) := by
  by_cases stamped : current.epoch = boundary.epoch.next
  · have howned := List.find?_some voted
    have owned : current.candidate = candidate.id := beq_iff_eq.mp howned
    have counted : ∀ e, (history.recordVote current).share? candidate.id e
        = if e = current.epoch then some current.stake else history.share? candidate.id e := by
      rw [← owned]
      exact history.share?_recordVote current
    have carried := CandidateFork.sustained_iff_carriedOn
      (sound.candidate candidate hcandidate).epochs_pos counted
    obtain ⟨enacts, hrun, henacts⟩ :=
      run_enactsCandidate boundary hcandidate closes below voted stamped past (stamped ▸ counted)
    refine ⟨enacts, hrun, henacts.trans ?_⟩
    rw [stamped] at carried counted
    constructor
    · intro due
      obtain ⟨opened, lasting⟩ := CandidateSchedule.windowContains_iff.mp due.window
      exact ⟨closes, opened, lasting, current, voted, stamped, carried.mp due.sustained⟩
    · intro h
      exact ⟨CandidateSchedule.windowContains_iff.mpr ⟨h.opened, h.lasting⟩,
        ⟨current.stake, by rw [counted, if_pos rfl]⟩, carried.mpr (h.of_first voted).2⟩
  · refine ⟨false, run_enactsCandidate_of_stale sound hcandidate closes below voted stamped past,
      iff_of_false Bool.false_ne_true fun h => ?_⟩
    exact stamped (h.of_first voted).1

/-- Any boundary enacts the candidate exactly if the votes are sustained. -/
theorem run_enactsCandidate_iff (sound : registry.Sound)
    (hcandidate : registry.candidate = some candidate) (below : boundary.epoch < .last)
    (past : ∀ e, boundary.epoch < e → history.share? candidate.id e = none) :
    ∃ enacts, (registry.enactsCandidate boundary).run history = (.ok enacts, history)
      ∧ (enacts = true ↔ candidate.SustainedBy history boundary) := by
  cases closes : boundary.closes with
  | false =>
      refine ⟨false, run_enactsCandidate_of_open closes, iff_of_false Bool.false_ne_true ?_⟩
      intro h
      rw [h.closes] at closes
      cases closes
  | true =>
      cases voted : boundary.results.find? fun result => result.candidate == candidate.id with
      | none =>
          refine ⟨false, run_enactsCandidate_of_silent hcandidate voted,
            iff_of_false Bool.false_ne_true fun h => ?_⟩
          obtain ⟨current, hcurrent, -⟩ := h.voted
          cases voted.symm.trans hcurrent
      | some current => exact run_enactsCandidate_of_voted sound hcandidate closes below voted past

variable (boundary) in
/-- Enactment is sustained voting. Where no result of the candidate is recorded
past the epoch of a boundary, the boundary enacts the candidate exactly if it
closes that epoch, the next epoch is in the window, and the first result that
it carries for the candidate is for the next epoch and, with those recorded
for the epochs right before, meets some threshold for as long as that asks.
Results of other candidates, recorded or carried, change nothing. -/
theorem enacts_iff_sustainedBy {forks : List (Fork ρ)} (created : create forks = .ok registry)
    (hcandidate : registry.candidate = some candidate) (below : boundary.epoch < .last)
    (past : ∀ e, boundary.epoch < e → history.share? candidate.id e = none) :
    ∃ enacts, (registry.enactsCandidate boundary).run history = (.ok enacts, history)
      ∧ (enacts = true ↔ candidate.SustainedBy history boundary)
      ∧ ∀ (other : EpochBoundary) (elsewhere : History),
          other.epoch = boundary.epoch → other.closes = boundary.closes →
          (other.results.filter fun result => result.candidate == candidate.id)
            = (boundary.results.filter fun result => result.candidate == candidate.id) →
          (∀ e, elsewhere.share? candidate.id e = history.share? candidate.id e) →
          (registry.enactsCandidate other).run elsewhere = (.ok enacts, elsewhere) := by
  obtain ⟨enacts, hrun, henacts⟩ :=
    run_enactsCandidate_iff (sound_of_create created) hcandidate below past
  refine ⟨enacts, hrun, henacts, fun other elsewhere epoch closes carried recorded => ?_⟩
  exact run_enactsCandidate_congr hcandidate hrun epoch closes carried recorded

/-- The votes that the boundary with votes for `halfForTwo` carries on. -/
theorem sustainedBy_votingBoundary :
    halfForTwo.SustainedBy (votesIn (.clamp 1)) (votingBoundary (.clamp 1)) := by
  have recorded : (votesIn (.clamp 1)).share? halfForTwo.id (.clamp 1) = some 6000 :=
    (History.empty.share?_recordVote ⟨.clamp 1, halfForTwo.id, 6000⟩ (.clamp 1)).trans (if_pos rfl)
  refine ⟨rfl, by decide, by decide, ⟨.clamp 2, halfForTwo.id, 5500⟩,
    List.find?_cons_of_pos (beq_self_eq_true _), rfl, ⟨5000, .clamp 2⟩,
    List.mem_singleton_self _, by decide, fun back hpos hback => ?_⟩
  obtain rfl : back = 1 := Nat.le_antisymm (Nat.le_of_lt_succ hback) hpos
  exact ⟨by decide, .clamp 1, rfl, 6000, recorded, by decide⟩

/-- Votes for another candidate. -/
def foreignVote (epoch : Epoch) : VotingResult := ⟨epoch, ⟨.filled 1⟩, 9000⟩

/-- Half of the stake in two epochs in a row enacts the candidate, also beside
votes for another one that are recorded for later epochs or come first. -/
theorem two_epochs_enact :
    create [.fixed ⟨"first", .genesis, ()⟩, .candidate halfForTwo] = .ok fixedAndCandidate
      ∧ (∀ e, (votingBoundary (.clamp 1)).epoch < e →
          (votesIn (.clamp 1)).share? halfForTwo.id e = none)
      ∧ (fixedAndCandidate.enactsCandidate (votingBoundary (.clamp 1))).run (votesIn (.clamp 1))
          = (.ok true, votesIn (.clamp 1))
      ∧ (fixedAndCandidate.enactsCandidate ⟨.clamp 1, true,
            foreignVote (.clamp 2) :: (votingBoundary (.clamp 1)).results⟩).run
            ((votesIn (.clamp 1)).recordVote (foreignVote (.clamp 3)))
          = (.ok true, (votesIn (.clamp 1)).recordVote (foreignVote (.clamp 3))) := by
  have created : create [.fixed ⟨"first", .genesis, ()⟩, .candidate halfForTwo]
      = .ok fixedAndCandidate := rfl
  have foreign : (⟨.filled 1⟩ : CandidateId) ≠ halfForTwo.id := by decide +kernel
  obtain ⟨enacts, hrun, hiff, same⟩ := enacts_iff_sustainedBy (votingBoundary (.clamp 1)) created
    rfl (by decide) (voted_votesIn (.clamp 1) halfForTwo.id)
  obtain rfl := hiff.mpr sustainedBy_votingBoundary
  refine ⟨created, voted_votesIn (.clamp 1) halfForTwo.id, hrun, same _ _ rfl rfl ?_ ?_⟩
  · exact List.filter_cons_of_neg fun h => foreign (beq_iff_eq.mp h)
  · exact History.share?_recordVote_of_ne _ foreign

end Registry

end LedgerCore
