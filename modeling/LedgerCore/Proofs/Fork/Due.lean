/-
When the candidate is due. `CandidateFork.DueAt` says it of a history and an
epoch without any counter: the epoch is in the window, a result is recorded
for it, and some threshold has been met in as many epochs as it asks for,
ending there. It depends on the results up to that epoch only
(`dueAt_congr`).

Counters enter once. Over ascending results, the first enactment is at the
first result at which the votes are sustained (`firstEnactment?_eq_find?`),
and over the votes read at startup these are the epochs at which the
candidate is due (`dueAt_iff_votes`).
-/
import LedgerCore.Fork.Activation
import LedgerCore.Proofs.Fork.Streak

namespace LedgerCore

variable {ρ : Type}

-- ======================================================= results of a history

namespace History

variable {history : History} {id : CandidateId} {threshold : Threshold}

/-- The share recorded for a candidate and an epoch. -/
def share? (history : History) (id : CandidateId) (epoch : Epoch) : Option UInt16 :=
  history.shares[(⟨id, epoch⟩ : VoteKey)]?

/-- A result that is recorded answers for its epoch, and for no other. -/
theorem share?_recordVote (history : History) (result : VotingResult) (epoch : Epoch) :
    (history.recordVote result).share? result.candidate epoch
      = if epoch = result.epoch then some result.stake
        else history.share? result.candidate epoch := by
  rw [share?, shares_recordVote]
  by_cases h : epoch = result.epoch
  · rw [if_pos h, if_pos (by rw [h])]
  · rw [if_neg h, if_neg fun heq => h (congrArg VoteKey.epoch heq).symm]
    rfl

/-- The result recorded for an epoch meets the threshold. -/
def Met (history : History) (id : CandidateId) (threshold : Threshold) (epoch : Nat) : Prop :=
  ∃ e : Epoch, e.toNat = epoch
    ∧ ∃ stake, history.share? id e = some stake ∧ threshold.isMetBy stake = true

/-- Results are read in the order of their epochs. -/
theorem votes_ascending (history : History) (start stop : Epoch) (id : CandidateId) :
    Ascending (history.votes start stop id) := by
  have ordered := history.shares.ordered_keys_toList
  unfold Ascending votes
  rw [List.pairwise_map]
  refine List.Pairwise.imp_of_mem ?_ (ordered.filter _)
  rintro ⟨⟨c, e⟩, stake⟩ ⟨⟨c', e'⟩, stake'⟩ hmem hmem' hlt
  -- of one candidate, so the order is that of the epochs
  have hc : c = id := (of_decide_eq_true (List.mem_filter.mp hmem).2).1
  have hc' : c' = id := (of_decide_eq_true (List.mem_filter.mp hmem').2).1
  subst hc hc'
  have hthen : (compare c' c').then (compare e.toNat e'.toNat) = .lt := hlt
  rw [Std.ReflOrd.compare_self] at hthen
  exact Nat.compare_eq_lt.mp hthen

/-- In the results of some epochs, a threshold is met at those of them where
it was met. -/
theorem metIn_votes_iff {start stop : Epoch} {epoch : Nat} :
    threshold.MetIn (history.votes start stop id) epoch ↔
      start.toNat ≤ epoch ∧ epoch < stop.toNat ∧ history.Met id threshold epoch := by
  constructor
  · intro h
    obtain ⟨result, hresult, rfl, hmet⟩ := h
    obtain ⟨-, hstart, hstop, hshare⟩ := mem_votes_iff.mp hresult
    exact ⟨hstart, hstop, result.epoch, rfl, result.stake, hshare, hmet⟩
  · intro h
    obtain ⟨hstart, hstop, e, rfl, stake, hshare, hmet⟩ := h
    exact ⟨⟨e, id, stake⟩, mem_votes_iff.mpr ⟨rfl, hstart, hstop, hshare⟩, rfl, hmet⟩

/-- Whether it was met at an epoch is a matter of the share on record for
it. -/
theorem Met.congr {other : History} {epoch : Nat} (h : history.Met id threshold epoch)
    (same : ∀ e : Epoch, e.toNat = epoch → other.share? id e = history.share? id e) :
    other.Met id threshold epoch := by
  obtain ⟨e, he, stake, hshare, hmet⟩ := h
  exact ⟨e, he, stake, (same e he).trans hshare, hmet⟩

end History

-- ============================================================ being due

namespace CandidateSchedule

/-- The window of a schedule includes both of its ends. -/
theorem windowContains_iff {schedule : CandidateSchedule} {epoch : Epoch} :
    schedule.windowContains epoch = true
      ↔ schedule.minEpoch ≤ epoch ∧ epoch ≤ schedule.maxEpoch := by
  rw [windowContains, Bool.and_eq_true, decide_eq_true_eq, decide_eq_true_eq]

/-- The longest of some spans is reached by none of them, nor by the one the
search began with. -/
private theorem le_foldl_longest (thresholds : List Threshold) (longest : EpochSpan) :
    longest ≤ thresholds.foldl (fun longest threshold =>
        if longest < threshold.epochs then threshold.epochs else longest) longest
      ∧ ∀ threshold ∈ thresholds, threshold.epochs ≤ thresholds.foldl (fun longest threshold =>
          if longest < threshold.epochs then threshold.epochs else longest) longest := by
  induction thresholds generalizing longest with
  | nil => exact ⟨Nat.le_refl _, nofun⟩
  | cons first rest ih =>
      rw [List.foldl_cons]
      obtain ⟨hlongest, hrest⟩ := ih (if longest < first.epochs then first.epochs else longest)
      have hstep : longest ≤ (if longest < first.epochs then first.epochs else longest)
          ∧ first.epochs ≤ (if longest < first.epochs then first.epochs else longest) := by
        split
        · next hlt => exact ⟨Nat.le_of_lt hlt, Nat.le_refl _⟩
        · next hge => exact ⟨Nat.le_refl _, Nat.le_of_not_lt hge⟩
      refine ⟨Nat.le_trans hstep.1 hlongest, fun threshold hmem => ?_⟩
      rcases List.mem_cons.mp hmem with rfl | hmem
      · exact Nat.le_trans hstep.2 hlongest
      · exact hrest threshold hmem

/-- No threshold asks for longer than the longest one. -/
theorem le_longestSpan {schedule : CandidateSchedule} {threshold : Threshold}
    (h : threshold ∈ schedule.thresholds) :
    threshold.epochs.toNat ≤ schedule.longestSpan.toNat :=
  (le_foldl_longest schedule.thresholds .none).2 threshold h

/-- Some threshold has a streak as long as it asks for. -/
def SustainedIn (schedule : CandidateSchedule) (results : List VotingResult) (epoch : Nat) :
    Prop :=
  ∃ threshold ∈ schedule.thresholds, threshold.Streak results epoch threshold.epochs.toNat

instance (schedule : CandidateSchedule) (results : List VotingResult) (epoch : Nat) :
    Decidable (schedule.SustainedIn results epoch) :=
  inferInstanceAs (Decidable (∃ threshold ∈ schedule.thresholds, _))

/-- With exact counters, a threshold is passed if the votes are sustained. -/
theorem anyPassed_eq_sustainedIn {schedule : CandidateSchedule} {results : List VotingResult}
    {epoch : Nat} {counts : List EpochSpan}
    (h : Threshold.AllCount schedule.thresholds results epoch counts) :
    Threshold.anyPassed schedule.thresholds counts
      = decide (schedule.SustainedIn results epoch) :=
  Bool.eq_iff_iff.mpr (h.anyPassed_iff.trans decide_eq_true_iff.symm)

/-- As long as counters are exact, the window and the streaks decide whether
the next result enacts the candidate. -/
theorem firstEnactment?_cons {schedule : CandidateSchedule} {counts : List EpochSpan}
    {previous : Option Epoch} {consecutive : Bool} {result : VotingResult}
    {results : List VotingResult} (rest : List VotingResult)
    (hconsecutive : previous.all (fun epoch => epoch.next == result.epoch) = consecutive)
    (h : Threshold.AllCount schedule.thresholds results result.epoch.toNat
      (Threshold.advanceAll schedule.thresholds result.stake consecutive counts)) :
    schedule.firstEnactment? counts previous (result :: rest)
      = if schedule.windowContains result.epoch
            && decide (schedule.SustainedIn results result.epoch.toNat) then some result.epoch
        else schedule.firstEnactment? (Threshold.advanceAll schedule.thresholds result.stake
          consecutive counts) (some result.epoch) rest := by
  rw [← anyPassed_eq_sustainedIn h, ← hconsecutive]
  cases previous <;> rfl

/-- The first enactment among results that were partly read. -/
theorem firstEnactment?_of_allCount {schedule : CandidateSchedule} {rest : List VotingResult} :
    ∀ {read : List VotingResult} {last : VotingResult} {counts : List EpochSpan},
      Ascending (read ++ last :: rest) →
      Threshold.AllCount schedule.thresholds (read ++ last :: rest) last.epoch.toNat counts →
      schedule.firstEnactment? counts (some last.epoch) rest
        = (rest.find? fun result => schedule.windowContains result.epoch
            && decide (schedule.SustainedIn (read ++ last :: rest) result.epoch.toNat)).map
              VotingResult.epoch := by
  induction rest with
  | nil =>
      intro read last counts ascending h
      rfl
  | cons next rest ih =>
      intro read last counts ascending h
      have hnext := h.advance ascending
      rw [firstEnactment?_cons rest (Bool.beq_comm ..) hnext, List.find?_cons]
      split
      · next hnow =>
          rw [hnow]
          rfl
      · next hnot =>
          rw [Bool.eq_false_iff.mpr hnot, List.append_cons]
          rw [List.append_cons] at ascending hnext
          exact ih ascending hnext

/-- The first enactment among ascending results is at the first result in the
window at which the votes are sustained. -/
theorem firstEnactment?_eq_find? {schedule : CandidateSchedule} {results : List VotingResult}
    (ascending : Ascending results) :
    schedule.firstEnactment? (Threshold.noCounts schedule.thresholds) none results
      = (results.find? fun result => schedule.windowContains result.epoch
          && decide (schedule.SustainedIn results result.epoch.toNat)).map VotingResult.epoch := by
  cases results with
  | nil => rfl
  | cons first rest =>
      have hfirst := Threshold.allCount_first schedule.thresholds ascending
      rw [firstEnactment?_cons rest rfl hfirst, List.find?_cons]
      split
      · next hnow =>
          rw [hnow]
          rfl
      · next hnot =>
          rw [Bool.eq_false_iff.mpr hnot]
          rw [← List.nil_append (first :: rest)] at ascending hfirst
          exact firstEnactment?_of_allCount ascending hfirst

/-- Some threshold has been met, by the results of a history, in each of as
many epochs as it asks for, ending with the given one. -/
def Sustained (schedule : CandidateSchedule) (history : History) (id : CandidateId)
    (epoch : Epoch) : Prop :=
  ∃ threshold ∈ schedule.thresholds, ∀ back < threshold.epochs.toNat,
    back ≤ epoch.toNat ∧ history.Met id threshold (epoch.toNat - back)

/-- Results that agree with a history over the longest span that ends with an
epoch are sustained there as the history is. -/
theorem sustainedIn_iff {schedule : CandidateSchedule} {history : History} {id : CandidateId}
    {epoch : Epoch} {results : List VotingResult}
    (agree : ∀ threshold n, epoch.toNat - schedule.longestSpan.toNat ≤ n → n ≤ epoch.toNat →
      (threshold.MetIn results n ↔ history.Met id threshold n)) :
    schedule.SustainedIn results epoch.toNat ↔ schedule.Sustained history id epoch := by
  refine exists_congr fun threshold => and_congr_right fun hmem => ?_
  refine forall_congr' fun back => imp_congr_right fun hback => and_congr_right fun hle => ?_
  have hspan := le_longestSpan hmem
  exact agree threshold _ (by omega) (Nat.sub_le ..)

end CandidateSchedule

namespace CandidateFork

/-- The candidate is due at an epoch: it is in the window, a result is
recorded for it, and the votes are sustained. -/
structure DueAt (candidate : CandidateFork ρ) (history : History) (epoch : Epoch) : Prop where
  window : candidate.schedule.windowContains epoch = true
  voted : ∃ stake, history.share? candidate.id epoch = some stake
  sustained : candidate.schedule.Sustained history candidate.id epoch

/-- Whether the candidate is due depends on its results up to that epoch. -/
theorem dueAt_congr {candidate : CandidateFork ρ} {history other : History} {epoch : Epoch}
    (same : ∀ e ≤ epoch, other.share? candidate.id e = history.share? candidate.id e) :
    candidate.DueAt other epoch ↔ candidate.DueAt history epoch := by
  have carry : ∀ {a b : History},
      (∀ e ≤ epoch, b.share? candidate.id e = a.share? candidate.id e) →
        candidate.DueAt a epoch → candidate.DueAt b epoch := by
    intro a b hsame h
    obtain ⟨window, ⟨stake, hstake⟩, threshold, hmem, hmet⟩ := h
    refine ⟨window, ⟨stake, (hsame epoch (Nat.le_refl _)).trans hstake⟩, threshold, hmem, ?_⟩
    intro back hback
    obtain ⟨hle, hmet⟩ := hmet back hback
    refine ⟨hle, hmet.congr fun e he => hsame e ?_⟩
    exact Nat.le_trans (Nat.le_of_eq he) (Nat.sub_le ..)
  exact ⟨carry fun e he => (same e he).symm, carry same⟩

end CandidateFork

-- ==================================================== the votes read at startup

/-- The first element of an ascending list with a property is the one of the
least epoch. -/
theorem Ascending.find?_eq_some_iff {results : List VotingResult} (ascending : Ascending results)
    {p : VotingResult → Bool} {result : VotingResult} :
    results.find? p = some result ↔
      (result ∈ results ∧ p result = true)
        ∧ ∀ other ∈ results, p other = true → ¬ other.epoch < result.epoch := by
  induction results with
  | nil => simp
  | cons first rest ih =>
      obtain ⟨hfirst, hrest⟩ := List.pairwise_cons.mp ascending
      rw [List.find?_cons]
      split
      · -- the first result will do, and it is the earliest
        next hp =>
          constructor
          · intro h
            cases h
            refine ⟨⟨List.mem_cons_self, hp⟩, fun other hother _ hlt => ?_⟩
            rcases List.mem_cons.mp hother with rfl | hother
            · exact Nat.lt_irrefl _ hlt
            · exact Nat.lt_asymm hlt (hfirst other hother)
          · intro h
            obtain ⟨⟨hresult, -⟩, hleast⟩ := h
            rcases List.mem_cons.mp hresult with rfl | hresult
            · rfl
            · exact absurd (hfirst result hresult) (hleast first List.mem_cons_self hp)
      · -- the first result will not do, so the others decide
        next hp =>
          rw [ih hrest]
          constructor
          · intro h
            obtain ⟨⟨hresult, hpresult⟩, hleast⟩ := h
            refine ⟨⟨List.mem_cons_of_mem _ hresult, hpresult⟩, fun other hother hpother => ?_⟩
            rcases List.mem_cons.mp hother with rfl | hother
            · rw [hp] at hpother
              cases hpother
            · exact hleast other hother hpother
          · intro h
            obtain ⟨⟨hresult, hpresult⟩, hleast⟩ := h
            rcases List.mem_cons.mp hresult with rfl | hresult
            · rw [hp] at hpresult
              cases hpresult
            · exact ⟨⟨hresult, hpresult⟩, fun other hother =>
                hleast other (List.mem_cons_of_mem _ hother)⟩

/-- The votes read at startup: from the longest span before the window on. -/
def CandidateFork.votes (candidate : CandidateFork ρ) (history : History) : List VotingResult :=
  history.votes (candidate.schedule.minEpoch.rewind candidate.schedule.longestSpan)
    candidate.schedule.maxEpoch.next candidate.id

/-- What is no later than an epoch comes before the one that follows. -/
private theorem lt_next_of_le {epoch other : Epoch} (h : epoch ≤ other) (hlast : epoch < .last) :
    epoch < other.next := by
  rw [Epoch.lt_def] at hlast
  rw [Epoch.lt_def, Epoch.next, Epoch.toNat_clamp]
  exact Nat.lt_min.mpr ⟨Nat.lt_succ_of_le h, hlast⟩

/-- Among the votes read at startup, the results that would enact the
candidate are those for the epochs at which it is due. -/
theorem CandidateFork.dueAt_iff_votes {candidate : CandidateFork ρ} {history : History}
    {epoch : Epoch}
    (within : candidate.schedule.maxEpoch < .last ∨ history.share? candidate.id .last = none) :
    candidate.DueAt history epoch ↔ ∃ result ∈ candidate.votes history,
      (candidate.schedule.windowContains result.epoch
        && decide (candidate.schedule.SustainedIn (candidate.votes history) result.epoch.toNat))
          = true ∧ result.epoch = epoch := by
  -- as far as a streak may reach back, the results that are read are all there are
  have sustained_iff : candidate.schedule.windowContains epoch = true →
      epoch < candidate.schedule.maxEpoch.next →
      (candidate.schedule.SustainedIn (candidate.votes history) epoch.toNat
        ↔ candidate.schedule.Sustained history candidate.id epoch) := by
    intro hwindow hstop
    have hmin := Epoch.le_def.mp (CandidateSchedule.windowContains_iff.mp hwindow).1
    have hlt := Epoch.lt_def.mp hstop
    refine CandidateSchedule.sustainedIn_iff fun threshold n hstart hle => ?_
    rw [votes, History.metIn_votes_iff, and_iff_right, and_iff_right]
    · omega
    · rw [Epoch.toNat_rewind]
      omega
  constructor
  · -- the query reads up to the end of the window
    intro h
    obtain ⟨hwindow, ⟨stake, hshare⟩, hsustained⟩ := h
    have hbounds := CandidateSchedule.windowContains_iff.mp hwindow
    have hstop : epoch < candidate.schedule.maxEpoch.next := by
      refine lt_next_of_le hbounds.2 ?_
      rcases within with hmax | hlast
      · exact Nat.lt_of_le_of_lt hbounds.2 hmax
      · refine Nat.lt_of_le_of_ne (Nat.le_of_lt_succ epoch.lt_limit) fun heq => ?_
        rw [show epoch = Epoch.last from Epoch.ext heq, hlast] at hshare
        cases hshare
    refine ⟨⟨epoch, candidate.id, stake⟩, History.mem_votes_iff.mpr ⟨rfl, ?_, hstop, hshare⟩,
      ?_, rfl⟩
    · exact Nat.le_trans (Nat.sub_le ..) hbounds.1
    · rw [Bool.and_eq_true, decide_eq_true_eq]
      exact ⟨hwindow, (sustained_iff hwindow hstop).mpr hsustained⟩
  · intro h
    obtain ⟨result, hresult, henacts, rfl⟩ := h
    rw [Bool.and_eq_true, decide_eq_true_eq] at henacts
    obtain ⟨-, -, hstop, hshare⟩ := History.mem_votes_iff.mp hresult
    exact ⟨henacts.1, ⟨_, hshare⟩, (sustained_iff henacts.1 hstop).mp henacts.2⟩

end LedgerCore
