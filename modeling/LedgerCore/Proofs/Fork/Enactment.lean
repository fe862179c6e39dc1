/-
Two ways to enact the candidate. At startup the recorded votes are searched
for its enactment; at a boundary the recorded votes and the current result
decide on the epoch that follows. Both come down to whether the candidate is
due (`enactment?_eq_some_iff`, `run_enactsCandidate`), so a node that
restarts recomputes the very epoch at which the candidate was enacted live.
-/
import LedgerCore.Proofs.Fork.Due
import LedgerCore.Proofs.Fork.Validity

namespace LedgerCore

variable {ρ : Type}

namespace History

/-- A history without the results of a candidate from an epoch on. -/
def before (history : History) (id : CandidateId) (epoch : Epoch) : History :=
  { history with
    shares := history.shares.filter fun key _ =>
      !decide (key.candidate = id ∧ epoch ≤ key.epoch) }

/-- A history cut off before an epoch has the shares up to there. -/
theorem share?_before (history : History) (id : CandidateId) (epoch e : Epoch) :
    (history.before id epoch).share? id e = if e < epoch then history.share? id e else none := by
  have hkept : (!decide ((⟨id, e⟩ : VoteKey).candidate = id ∧ epoch ≤ (⟨id, e⟩ : VoteKey).epoch))
      = decide (e < epoch) := by
    rw [Bool.eq_iff_iff, Bool.not_eq_true', decide_eq_false_iff_not, decide_eq_true_eq,
      and_iff_right rfl]
    exact Nat.not_le
  rw [share?, before, Std.ExtTreeMap.getElem?_filter']
  cases hshare : history.shares[(⟨id, e⟩ : VoteKey)]? with
  | none => rw [share?, hshare, ite_self]; rfl
  | some stake =>
      rw [share?, hshare, Option.filter_some, hkept]
      by_cases h : e < epoch <;> simp [h]

end History

namespace Registry

-- =================================================================== at startup

/-- The epoch at which the recorded votes enact the candidate. -/
def enactment? (registry : Registry ρ) (history : History) : Option Epoch :=
  registry.candidate.bind fun candidate =>
    candidate.schedule.firstEnactment? (Threshold.noCounts candidate.schedule.thresholds) none
      (candidate.votes history)

/-- On a history held in memory, the look-up of the enactment always
succeeds and changes nothing. -/
theorem run_findEnactment (registry : Registry ρ) (history : History) :
    registry.findEnactment.run history = (.ok (registry.enactment? history), history) := by
  unfold findEnactment enactment?
  cases registry.candidate with
  | none => rfl
  | some candidate => rfl

variable {registry : Registry ρ} {candidate : CandidateFork ρ} {history : History}

/-- Without a candidate there is no enactment. -/
theorem enactment?_of_candidate_none (h : registry.candidate = none) :
    registry.enactment? history = none := by
  rw [enactment?, h]
  rfl

/-- What is enacted is a candidate. -/
theorem exists_candidate_of_enactment? {epoch : Epoch}
    (h : registry.enactment? history = some epoch) :
    ∃ candidate, registry.candidate = some candidate := by
  obtain ⟨candidate, hcandidate, -⟩ := Option.bind_eq_some_iff.mp h
  exact ⟨candidate, hcandidate⟩

/-- The votes enact the candidate at the first epoch at which it is due. -/
theorem enactment?_eq_some_iff (hcandidate : registry.candidate = some candidate)
    (within : candidate.schedule.maxEpoch < .last ∨ history.share? candidate.id .last = none)
    {epoch : Epoch} :
    registry.enactment? history = some epoch ↔
      candidate.DueAt history epoch ∧ ∀ e < epoch, ¬ candidate.DueAt history e := by
  have ascending : Ascending (candidate.votes history) := History.votes_ascending ..
  rw [enactment?, hcandidate, Option.bind_some,
    CandidateSchedule.firstEnactment?_eq_find? ascending, Option.map_eq_some_iff]
  simp only [ascending.find?_eq_some_iff, CandidateFork.dueAt_iff_votes within]
  constructor
  · intro h
    obtain ⟨result, ⟨⟨hresult, henacts⟩, hleast⟩, rfl⟩ := h
    refine ⟨⟨result, hresult, henacts, rfl⟩, ?_⟩
    intro e hlt h
    obtain ⟨other, hother, hother', rfl⟩ := h
    exact hleast other hother hother' hlt
  · intro h
    obtain ⟨⟨result, hresult, henacts, rfl⟩, hleast⟩ := h
    exact ⟨result, ⟨⟨hresult, henacts⟩, fun other hother hother' hlt =>
      hleast other.epoch hlt ⟨other, hother, hother', rfl⟩⟩, rfl⟩

/-- The votes do not enact the candidate if it is never due. -/
theorem enactment?_eq_none_iff (hcandidate : registry.candidate = some candidate)
    (within : candidate.schedule.maxEpoch < .last ∨ history.share? candidate.id .last = none) :
    registry.enactment? history = none ↔ ∀ e, ¬ candidate.DueAt history e := by
  have ascending : Ascending (candidate.votes history) := History.votes_ascending ..
  rw [enactment?, hcandidate, Option.bind_some,
    CandidateSchedule.firstEnactment?_eq_find? ascending, Option.map_eq_none_iff,
    List.find?_eq_none]
  simp only [CandidateFork.dueAt_iff_votes within]
  constructor
  · intro hnone e h
    obtain ⟨result, hresult, henacts, -⟩ := h
    exact hnone result hresult henacts
  · intro hnone result hresult henacts
    exact hnone result.epoch ⟨result, hresult, henacts, rfl⟩

-- ================================================================= at a boundary

/-- A boundary that does not close its epoch enacts nothing. -/
theorem run_enactsCandidate_of_open {boundary : EpochBoundary}
    (hopen : boundary.closes = false) :
    (registry.enactsCandidate boundary).run history = (.ok false, history) := by
  unfold enactsCandidate
  cases registry.candidate with
  | none => rfl
  | some candidate =>
      dsimp only
      rw [hopen]
      rfl

/-- A boundary without a result for the candidate does not enact it. -/
theorem run_enactsCandidate_of_silent (hcandidate : registry.candidate = some candidate)
    {boundary : EpochBoundary}
    (silent : boundary.results.find? (fun result => result.candidate == candidate.id) = none) :
    (registry.enactsCandidate boundary).run history = (.ok false, history) := by
  unfold enactsCandidate
  rw [hcandidate]
  dsimp only
  cases boundary.closes with
  | false => rfl
  | true =>
      rw [silent]
      rfl

/-- The votes read at a boundary: from the longest span before the epoch that
follows it on. -/
def votesBefore (candidate : CandidateFork ρ) (history : History) (boundary : EpochBoundary) :
    List VotingResult :=
  history.votes (boundary.epoch.next.rewind candidate.schedule.longestSpan)
    candidate.schedule.maxEpoch candidate.id

section Boundary

variable {boundary : EpochBoundary} {current : VotingResult} {after : History}

/-- A boundary that carries a result for the candidate decides by the window
and by the recorded votes with that result. -/
theorem run_enactsCandidate_voted (hcandidate : registry.candidate = some candidate)
    (closes : boundary.closes = true)
    (voted : boundary.results.find? (fun result => result.candidate == candidate.id)
      = some current) (history : History) :
    (registry.enactsCandidate boundary).run history
      = (.ok (candidate.schedule.windowContains boundary.epoch.next
          && Threshold.anyPassed candidate.schedule.thresholds
              (Threshold.sustained candidate.schedule.thresholds boundary.epoch.next
                (votesBefore candidate history boundary ++ [current]))), history) := by
  unfold enactsCandidate
  rw [hcandidate]
  dsimp only
  rw [closes, voted]
  cases candidate.schedule.windowContains boundary.epoch.next <;> rfl

/-- The result a boundary brings comes after those that were on record. -/
theorem votesBefore_ascending (below : boundary.epoch < .last)
    (stamped : current.epoch = boundary.epoch.next)
    (past : ∀ e, boundary.epoch < e → history.share? candidate.id e = none) :
    Ascending (votesBefore candidate history boundary ++ [current]) := by
  refine List.pairwise_append.mpr ⟨History.votes_ascending .., List.pairwise_singleton .., ?_⟩
  intro result hresult other hother
  obtain rfl := List.mem_singleton.mp hother
  obtain ⟨-, -, -, hshare⟩ := History.mem_votes_iff.mp hresult
  have hle : result.epoch ≤ boundary.epoch := by
    refine Nat.le_of_not_lt fun hlt => ?_
    cases (past result.epoch hlt).symm.trans hshare
  rw [stamped, Epoch.lt_def, Epoch.toNat_next_of_lt below]
  exact Nat.lt_succ_of_le hle

/-- The recorded votes with the current result are sustained as the history
that has it is. -/
theorem sustainedIn_votesBefore_iff (below : boundary.epoch < .last)
    (window : candidate.schedule.windowContains boundary.epoch.next = true)
    (stamped : current.epoch = boundary.epoch.next)
    (past : ∀ e, boundary.epoch < e → history.share? candidate.id e = none)
    (counted : ∀ e, after.share? candidate.id e
      = if e = boundary.epoch.next then some current.stake else history.share? candidate.id e) :
    candidate.schedule.SustainedIn (votesBefore candidate history boundary ++ [current])
        boundary.epoch.next.toNat
      ↔ candidate.schedule.Sustained after candidate.id boundary.epoch.next := by
  have hmax := Epoch.le_def.mp (CandidateSchedule.windowContains_iff.mp window).2
  refine CandidateSchedule.sustainedIn_iff fun threshold n hstart hle => ?_
  constructor
  · -- a result that was read is on record afterwards
    intro h
    obtain ⟨result, hresult, rfl, hmet⟩ := h
    rcases List.mem_append.mp hresult with hrecorded | hcurrent
    · obtain ⟨-, -, -, hshare⟩ := History.mem_votes_iff.mp hrecorded
      have hne : result.epoch ≠ boundary.epoch.next := by
        intro heq
        have hlt : boundary.epoch < result.epoch := by
          rw [heq, Epoch.lt_def, Epoch.toNat_next_of_lt below]
          exact Nat.lt_succ_self _
        cases (past result.epoch hlt).symm.trans hshare
      exact ⟨result.epoch, rfl, result.stake, by rw [counted, if_neg hne]; exact hshare, hmet⟩
    · obtain rfl := List.mem_singleton.mp hcurrent
      exact ⟨result.epoch, rfl, result.stake, by rw [counted, if_pos stamped], hmet⟩
  · -- and one on record was read, or is the one of this boundary
    intro h
    obtain ⟨e, rfl, stake, hshare, hmet⟩ := h
    rw [counted] at hshare
    split at hshare
    · next heq =>
        cases hshare
        exact ⟨current, List.mem_append_right _ (List.mem_singleton_self _),
          by rw [stamped, heq], hmet⟩
    · next hne =>
        have hlt : e.toNat < boundary.epoch.next.toNat :=
          Nat.lt_of_le_of_ne hle fun heq => hne (Epoch.ext heq)
        refine ⟨⟨e, candidate.id, stake⟩, List.mem_append_left _ ?_, rfl, hmet⟩
        exact History.mem_votes_iff.mpr
          ⟨rfl, hstart, Nat.lt_of_lt_of_le hlt hmax, hshare⟩

variable (boundary) in
/-- A boundary that closes its epoch with a result for the candidate, for the
epoch that follows, enacts it exactly if it is due there by the votes with
that result. -/
theorem run_enactsCandidate (hcandidate : registry.candidate = some candidate)
    (closes : boundary.closes = true) (below : boundary.epoch < .last)
    (voted : boundary.results.find? (fun result => result.candidate == candidate.id)
      = some current)
    (stamped : current.epoch = boundary.epoch.next)
    (past : ∀ e, boundary.epoch < e → history.share? candidate.id e = none)
    (counted : ∀ e, after.share? candidate.id e
      = if e = boundary.epoch.next then some current.stake else history.share? candidate.id e) :
    ∃ enacts, (registry.enactsCandidate boundary).run history = (.ok enacts, history)
      ∧ (enacts = true ↔ candidate.DueAt after boundary.epoch.next) := by
  refine ⟨_, run_enactsCandidate_voted hcandidate closes voted history, ?_⟩
  cases hwindow : candidate.schedule.windowContains boundary.epoch.next with
  | false =>
      refine iff_of_false Bool.false_ne_true fun due => ?_
      rw [due.window] at hwindow
      cases hwindow
  | true =>
      have exact_counts : Threshold.AllCount candidate.schedule.thresholds
          (votesBefore candidate history boundary ++ [current]) current.epoch.toNat _ :=
        Threshold.allCount_sustained (votesBefore_ascending below stamped past)
      rw [stamped] at exact_counts
      rw [Bool.true_and, CandidateSchedule.anyPassed_eq_sustainedIn exact_counts,
        decide_eq_true_eq, sustainedIn_votesBefore_iff below hwindow stamped past counted]
      constructor
      · intro sustained
        exact ⟨hwindow, ⟨current.stake, by rw [counted, if_pos rfl]⟩, sustained⟩
      · exact CandidateFork.DueAt.sustained

end Boundary

-- ================================================================ both agree

/-- The candidate would be enacted live at an epoch of its window: a result
is recorded for it, and the boundary that closes the epoch before with that
result enacts the candidate on the results for earlier epochs. -/
def EnactedLive (registry : Registry ρ) (candidate : CandidateFork ρ) (history : History)
    (epoch : Epoch) : Prop :=
  candidate.schedule.minEpoch ≤ epoch ∧ epoch ≤ candidate.schedule.maxEpoch
    ∧ ∃ stake, history.share? candidate.id epoch = some stake
      ∧ (registry.enactsCandidate ⟨epoch.rewind (.clamp 1), true,
            [⟨epoch, candidate.id, stake⟩]⟩).run (history.before candidate.id epoch)
          = (.ok true, history.before candidate.id epoch)

/-- The boundary before an epoch of the window, with the result recorded for
that epoch, decides by the earlier results whether the candidate is due. -/
theorem run_enactsCandidate_before (sound : registry.Sound)
    (hcandidate : registry.candidate = some candidate)
    (bounded : candidate.schedule.maxEpoch < .last) {epoch : Epoch} {stake : UInt16}
    (hmin : candidate.schedule.minEpoch ≤ epoch) (hmax : epoch ≤ candidate.schedule.maxEpoch)
    (hshare : history.share? candidate.id epoch = some stake) :
    ∃ enacts, (registry.enactsCandidate ⟨epoch.rewind (.clamp 1), true,
          [⟨epoch, candidate.id, stake⟩]⟩).run (history.before candidate.id epoch)
        = (.ok enacts, history.before candidate.id epoch)
      ∧ (enacts = true ↔ candidate.DueAt history epoch) := by
  have hgenesis := (sound.candidate candidate hcandidate).behind registry.genesis
    List.mem_cons_self
  have hpos : 0 < epoch.toNat := Nat.lt_of_le_of_lt (Nat.zero_le _)
    (Nat.lt_of_lt_of_le hgenesis hmin)
  have hlast : epoch.toNat < Epoch.last.toNat := Nat.lt_of_le_of_lt hmax bounded
  have hrewind : (epoch.rewind (.clamp 1)).toNat = epoch.toNat - 1 := rfl
  have below : epoch.rewind (.clamp 1) < .last := by
    rw [Epoch.lt_def, hrewind]
    omega
  have hnext : (epoch.rewind (.clamp 1)).next = epoch := by
    refine Epoch.ext ?_
    rw [Epoch.toNat_next_of_lt below, hrewind]
    omega
  have past : ∀ e, epoch.rewind (.clamp 1) < e →
      (history.before candidate.id epoch).share? candidate.id e = none := by
    intro e hlt
    rw [Epoch.lt_def, hrewind] at hlt
    rw [History.share?_before, if_neg]
    exact fun hbefore => absurd (Epoch.lt_def.mp hbefore) (by omega)
  have counted : ∀ e, ((history.before candidate.id epoch).recordVote
        ⟨epoch, candidate.id, stake⟩).share? candidate.id e
      = if e = (epoch.rewind (.clamp 1)).next then some stake
        else (history.before candidate.id epoch).share? candidate.id e := by
    rw [hnext]
    exact History.share?_recordVote _ ⟨epoch, candidate.id, stake⟩
  obtain ⟨enacts, hrun, henacts⟩ := run_enactsCandidate
    ⟨epoch.rewind (.clamp 1), true, [⟨epoch, candidate.id, stake⟩]⟩ hcandidate rfl below
    (List.find?_cons_of_pos (beq_self_eq_true _)) hnext.symm past counted
  refine ⟨enacts, hrun, henacts.trans ?_⟩
  -- up to this epoch, the results are those of the whole history again
  rw [hnext]
  refine CandidateFork.dueAt_congr fun e hle => ?_
  rw [counted, hnext]
  split
  · next heq => rw [heq, hshare]
  · next hne =>
      rw [History.share?_before, if_pos]
      exact Nat.lt_of_le_of_ne hle fun heq => hne (Epoch.ext heq)

/-- The candidate would be enacted live exactly where it is due. -/
theorem enactedLive_iff_dueAt (sound : registry.Sound)
    (hcandidate : registry.candidate = some candidate)
    (bounded : candidate.schedule.maxEpoch < .last) (history : History) (epoch : Epoch) :
    registry.EnactedLive candidate history epoch ↔ candidate.DueAt history epoch := by
  constructor
  · intro h
    obtain ⟨hmin, hmax, stake, hshare, hlive⟩ := h
    obtain ⟨enacts, hrun, henacts⟩ :=
      run_enactsCandidate_before sound hcandidate bounded hmin hmax hshare
    rw [hlive] at hrun
    cases hrun
    exact henacts.mp rfl
  · intro due
    have hwindow := CandidateSchedule.windowContains_iff.mp due.window
    obtain ⟨stake, hshare⟩ := due.voted
    obtain ⟨enacts, hrun, henacts⟩ :=
      run_enactsCandidate_before sound hcandidate bounded hwindow.1 hwindow.2 hshare
    rw [henacts.mpr due] at hrun
    exact ⟨hwindow.1, hwindow.2, stake, hshare, hrun⟩

/-- Startup and boundaries agree on the candidate, whatever votes are
recorded: the enactment found at startup is at the first epoch at which a
boundary would have enacted the candidate on the results before it, and there
is none if no boundary would have. -/
theorem findEnactment_eq_first_live {forks : List (Fork ρ)}
    (created : create forks = .ok registry) (hcandidate : registry.candidate = some candidate)
    (bounded : candidate.schedule.maxEpoch < .last) (history : History) :
    ∃ found, registry.findEnactment.run history = (.ok found, history)
      ∧ (∀ epoch, found = some epoch ↔ registry.EnactedLive candidate history epoch
          ∧ ∀ e < epoch, ¬ registry.EnactedLive candidate history e)
      ∧ (found = none ↔ ∀ epoch, ¬ registry.EnactedLive candidate history epoch) := by
  have live := enactedLive_iff_dueAt (sound_of_create created) hcandidate bounded history
  refine ⟨registry.enactment? history, registry.run_findEnactment history, ?_, ?_⟩
  · intro epoch
    simp only [live]
    exact enactment?_eq_some_iff hcandidate (.inl bounded)
  · simp only [live]
    exact enactment?_eq_none_iff hcandidate (.inl bounded)

/-- A candidate that half of the stake enacts, after two epochs in a row. -/
def halfForTwo : CandidateFork Unit :=
  ⟨"second", ⟨.clamp 2, .clamp 5, [⟨5000, .clamp 2⟩]⟩, ()⟩

/-- That candidate behind one fixed fork. -/
def fixedAndCandidate : Registry Unit := ⟨⟨"first", .genesis, ()⟩, [], some halfForTwo⟩

/-- Enough votes for two epochs. -/
def twoResults : History :=
  .recordVotes .empty [⟨.clamp 1, halfForTwo.id, 6000⟩, ⟨.clamp 2, halfForTwo.id, 5500⟩]

/-- Two epochs in a row enact the candidate at the second, at startup as live. -/
theorem two_results_enact_live :
    fixedAndCandidate.findEnactment.run twoResults = (.ok (some (.clamp 2)), twoResults)
      ∧ fixedAndCandidate.EnactedLive halfForTwo twoResults (.clamp 2)
      ∧ ∀ e < .clamp 2, ¬ fixedAndCandidate.EnactedLive halfForTwo twoResults e := by
  have created : create [.fixed ⟨"first", .genesis, ()⟩, .candidate halfForTwo]
      = .ok fixedAndCandidate := rfl
  obtain ⟨found, hrun, hfound, -⟩ :=
    findEnactment_eq_first_live created rfl (by decide) twoResults
  have computed : (fixedAndCandidate.findEnactment.run twoResults).1.toOption
      = some (some (.clamp 2)) := by decide +kernel
  rw [hrun] at computed
  obtain rfl : found = some (.clamp 2) := Option.some.inj computed
  exact ⟨hrun, (hfound _).mp rfl⟩

end Registry

end LedgerCore
