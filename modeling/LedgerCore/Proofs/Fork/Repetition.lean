/-
A boundary that is processed again, on the history that it left. The votes it
carries are recorded by then, and so is what it made active, so the second
time writes nothing (`recordVotes_again`, `of_recordEnacted`). The decision is
another matter. A boundary counts its result for the candidate behind the
recorded ones, and the second time it finds that very result among them: the
counters see two results in a row for one epoch, which they take for a gap, and
begin anew (`Threshold.sustained_again`).

So an enactment of the candidate is answered again only if its result is not
read back or is enough by itself (`CandidateFork.Repeatable`). Otherwise the
second answer is that nothing becomes active. Whatever else a boundary answers,
it answers again (`repeated_boundary`).
-/
import LedgerCore.Proofs.Fork.Boundary
import LedgerCore.Proofs.Fork.Startup
import Mathlib.Data.List.Sort

namespace LedgerCore

variable {ρ : Type}

-- ============================================================== a result twice

/-- Ascending results are determined by which results they are. -/
theorem Ascending.ext {results others : List VotingResult} (h : Ascending results)
    (h' : Ascending others) (same : ∀ result, result ∈ results ↔ result ∈ others) :
    results = others := by
  have : Std.Irrefl fun a b : VotingResult => a.epoch < b.epoch := ⟨fun _ => Nat.lt_irrefl _⟩
  have : Std.Antisymm fun a b : VotingResult => a.epoch < b.epoch :=
    ⟨fun _ _ hlt hgt => absurd hgt (Nat.lt_asymm hlt)⟩
  exact h.eq_of_mem_iff h' same

namespace Threshold

variable {thresholds : List Threshold} {target : Epoch}

/-- Results that are not past an epoch are read to the last one. -/
theorem countUpTo_snd {rest : List VotingResult} :
    ∀ {last : VotingResult} {counts : List EpochSpan},
      (∀ result ∈ last :: rest, result.epoch ≤ target) →
      (countUpTo thresholds target counts last rest).2
        = (last :: rest).getLast (List.cons_ne_nil _ _) := by
  induction rest with
  | nil =>
      intro last counts passed
      rfl
  | cons next rest ih =>
      intro last counts passed
      rw [countUpTo, if_pos (passed last List.mem_cons_self),
        List.getLast_cons (List.cons_ne_nil _ _)]
      exact ih fun result hresult => passed result (List.mem_cons_of_mem _ hresult)

/-- One more result behind them is read as well. -/
theorem countUpTo_concat (again : VotingResult) {rest : List VotingResult} :
    ∀ {last : VotingResult} {counts : List EpochSpan},
      (∀ result ∈ last :: rest, result.epoch ≤ target) →
      countUpTo thresholds target counts last (rest ++ [again])
        = (advanceAll thresholds again.stake
              (again.epoch == (countUpTo thresholds target counts last rest).2.epoch.next)
              (countUpTo thresholds target counts last rest).1, again) := by
  induction rest with
  | nil =>
      intro last counts passed
      rw [List.nil_append, countUpTo, countUpTo, if_pos (passed last List.mem_cons_self)]
      rfl
  | cons next rest ih =>
      intro last counts passed
      have hlast := passed last List.mem_cons_self
      rw [List.cons_append, countUpTo, if_pos hlast, countUpTo, if_pos hlast]
      exact ih fun result hresult => passed result (List.mem_cons_of_mem _ hresult)

/-- The last result, counted twice, begins the count anew. -/
theorem sustained_again {read : List VotingResult} {last : VotingResult}
    (passed : ∀ result ∈ read, result.epoch ≤ last.epoch) (below : last.epoch < .last) :
    sustained thresholds last.epoch (read ++ [last] ++ [last])
      = advanceAll thresholds last.stake false
          (sustained thresholds last.epoch (read ++ [last])) := by
  obtain ⟨first, rest, hall⟩ : ∃ first rest, read ++ [last] = first :: rest :=
    List.exists_cons_of_ne_nil (List.append_ne_nil_of_right_ne_nil read (List.cons_ne_nil last []))
  have hpassed : ∀ result ∈ first :: rest, result.epoch ≤ last.epoch := by
    rw [← hall]
    intro result hresult
    rcases List.mem_append.mp hresult with hread | hlast
    · exact passed result hread
    · rw [List.mem_singleton.mp hlast]
      exact Nat.le_refl _
  have hend : (first :: rest).getLast (List.cons_ne_nil _ _) = last := by
    simp only [← hall, List.getLast_append_singleton]
  -- no epoch below the last one follows itself
  have hgap : (last.epoch == last.epoch.next) = false := by
    refine beq_eq_false_iff_ne.mpr fun heq => ?_
    have hlt := Epoch.lt_next below
    rw [← heq] at hlt
    exact Nat.lt_irrefl _ hlt
  rw [hall, List.cons_append, sustained, sustained, countUpTo_concat last hpassed,
    countUpTo_snd hpassed, hend, hgap]
  dsimp only
  rw [if_pos rfl, if_pos]
  rw [countUpTo_snd hpassed, hend]

/-- Begun anew with one result, a count is enough for a threshold of a single
epoch only. -/
theorem le_advance_restart_iff {threshold : Threshold} (asked : 0 < threshold.epochs.toNat)
    (stake : UInt16) (count : EpochSpan) :
    threshold.epochs ≤ threshold.advance stake false count ↔
      threshold.epochs.toNat = 1 ∧ threshold.isMetBy stake = true := by
  unfold advance
  cases threshold.isMetBy stake with
  | false =>
      refine iff_of_false (fun hle => ?_) (fun h => Bool.false_ne_true h.2)
      exact Nat.not_lt.mpr hle asked
  | true =>
      rw [and_iff_left rfl]
      exact ⟨fun hle => Nat.le_antisymm hle asked, Nat.le_of_eq⟩

/-- Counters that begin anew pass a threshold only if it asks for one
epoch. -/
theorem AllCount.anyPassed_restart {results : List VotingResult} {epoch : Nat}
    {counts : List EpochSpan} (h : AllCount thresholds results epoch counts)
    (asked : ∀ threshold ∈ thresholds, 0 < threshold.epochs.toNat) (stake : UInt16) :
    anyPassed thresholds (advanceAll thresholds stake false counts) = true ↔
      ∃ threshold ∈ thresholds, threshold.epochs.toNat = 1 ∧ threshold.isMetBy stake = true := by
  induction h with
  | nil => simp [anyPassed]
  | @cons threshold count thresholds counts _ _ ih =>
      have hstep : anyPassed (threshold :: thresholds)
            (advanceAll (threshold :: thresholds) stake false (count :: counts))
          = (decide (threshold.epochs ≤ threshold.advance stake false count)
            || anyPassed thresholds (advanceAll thresholds stake false counts)) := rfl
      rw [hstep, Bool.or_eq_true, decide_eq_true_eq,
        le_advance_restart_iff (asked threshold List.mem_cons_self),
        ih fun other hother => asked other (List.mem_cons_of_mem _ hother)]
      simp only [List.mem_cons, exists_eq_or_imp]

end Threshold

-- ================================================================ votes twice

namespace History

variable {history after : History}

/-- Results that are recorded already change nothing. -/
theorem recordVotes_of_recorded {results : List VotingResult}
    (h : ∀ result ∈ results, history.share? result.candidate result.epoch = some result.stake) :
    history.recordVotes results = history := by
  induction results with
  | nil => rfl
  | cons result rest ih =>
      have hsame : history.recordVote result = history := by
        refine History.ext rfl (Std.ExtTreeMap.ext_getElem? fun key => ?_)
        rw [shares_recordVote]
        split
        · next hkey =>
            rw [← hkey]
            exact (h result List.mem_cons_self).symm
        · rfl
      show (history.recordVote result).recordVotes rest = history
      rw [hsame]
      exact ih fun other hother => h other (List.mem_cons_of_mem _ hother)

/-- The votes of a boundary change nothing where they are recorded. -/
theorem recordVotes_again {boundary : EpochBoundary} (tallied : boundary.Tallied)
    (hshares : after.shares = (history.recordVotes boundary.results).shares) :
    after.recordVotes boundary.results = after := by
  refine recordVotes_of_recorded fun result hresult => ?_
  have hfind := Registry.find?_key_of_mem tallied.distinct hresult
  rw [share?, hshares, ← share?, share?_recordVotes tallied.stamped tallied.distinct,
    if_pos (tallied.stamped result hresult), hfind]
  rfl

end History

-- ================================================================ deciding twice

/-- A share of stake passes a threshold that asks for a single epoch. -/
def CandidateSchedule.PassedAtOnce (schedule : CandidateSchedule) (stake : UInt16) : Prop :=
  ∃ threshold ∈ schedule.thresholds, threshold.epochs.toNat = 1
    ∧ threshold.isMetBy stake = true

namespace CandidateFork

/-- An enactment of the candidate by a boundary is answered again: its result
is not read back, as the window is over by the next epoch, or it is enough by
itself. -/
def Repeatable (candidate : CandidateFork ρ) (boundary : EpochBoundary) : Prop :=
  candidate.schedule.maxEpoch ≤ boundary.epoch.next
    ∨ ∃ result ∈ boundary.results, result.candidate = candidate.id
        ∧ candidate.schedule.PassedAtOnce result.stake

/-- The result that a boundary carries for the candidate is the only one. -/
theorem repeatable_iff {candidate : CandidateFork ρ} {boundary : EpochBoundary}
    (tallied : boundary.Tallied) {current : VotingResult} (carried : current ∈ boundary.results)
    (owned : current.candidate = candidate.id) :
    candidate.Repeatable boundary ↔
      candidate.schedule.maxEpoch ≤ boundary.epoch.next
        ∨ candidate.schedule.PassedAtOnce current.stake := by
  refine or_congr_right ⟨?_, fun h => ⟨current, carried, owned, h⟩⟩
  intro h
  obtain ⟨result, hresult, hid, hpassed⟩ := h
  rwa [List.inj_on_of_nodup_map tallied.distinct hresult carried (hid.trans owned.symm)] at hpassed

end CandidateFork

namespace Registry

variable {registry : Registry ρ} {history after : History} {candidate : CandidateFork ρ}
  {boundary : EpochBoundary}

section Candidate

variable {current : VotingResult}

/-- Within the window, the result is read back behind the votes before it. -/
theorem votesBefore_again (below : boundary.epoch < .last)
    (within : boundary.epoch.next < candidate.schedule.maxEpoch)
    (owned : current.candidate = candidate.id) (stamped : current.epoch = boundary.epoch.next)
    (past : ∀ e, boundary.epoch < e → history.share? candidate.id e = none)
    (counted : ∀ e, after.share? candidate.id e
      = if e = boundary.epoch.next then some current.stake else history.share? candidate.id e) :
    votesBefore candidate after boundary = votesBefore candidate history boundary ++ [current] := by
  -- both lists ascend, so they are equal if they have the same members
  refine Ascending.ext (History.votes_ascending ..) (votesBefore_ascending below stamped past) ?_
  intro result
  rw [votesBefore, votesBefore, List.mem_append, List.mem_singleton, History.mem_votes_iff,
    History.mem_votes_iff, ← History.share?, ← History.share?, counted]
  obtain ⟨epoch, owner, stake⟩ := result
  obtain ⟨epoch', owner', stake'⟩ := current
  dsimp only at owned stamped ⊢
  subst owned stamped
  by_cases hnext : epoch = boundary.epoch.next
  · subst hnext
    rw [if_pos rfl, past _ (Epoch.lt_next below)]
    constructor
    · intro h
      obtain ⟨rfl, -, -, hstake⟩ := h
      cases hstake
      exact .inr rfl
    · intro h
      rcases h with ⟨-, -, -, hnone⟩ | hsame
      · cases hnone
      · cases hsame
        exact ⟨rfl, Nat.sub_le .., within, rfl⟩
  · rw [if_neg hnext, or_iff_left fun hsame => hnext (congrArg VotingResult.epoch hsame)]

/-- Where the window is over by the next epoch, it is not. -/
theorem votesBefore_kept (ended : candidate.schedule.maxEpoch ≤ boundary.epoch.next)
    (counted : ∀ e, after.share? candidate.id e
      = if e = boundary.epoch.next then some current.stake else history.share? candidate.id e) :
    votesBefore candidate after boundary = votesBefore candidate history boundary := by
  refine Ascending.ext (History.votes_ascending ..) (History.votes_ascending ..) fun result => ?_
  rw [votesBefore, votesBefore, History.mem_votes_iff, History.mem_votes_iff, ← History.share?,
    ← History.share?, counted]
  refine and_congr_right fun _ => and_congr_right fun _ => and_congr_right fun hstop => ?_
  rw [if_neg]
  intro heq
  rw [heq] at hstop
  exact Nat.not_lt.mpr ended hstop

section Counts

variable (sound : registry.Sound) (hcandidate : registry.candidate = some candidate)
  {read : List VotingResult} (ascending : Ascending (read ++ [current]))

include ascending in
/-- A result that is enough by itself enacts the candidate. -/
theorem anyPassed_of_passedAtOnce (h : candidate.schedule.PassedAtOnce current.stake) :
    Threshold.anyPassed candidate.schedule.thresholds
      (Threshold.sustained candidate.schedule.thresholds current.epoch
        (read ++ [current])) = true := by
  obtain ⟨threshold, hthreshold, hone, hmet⟩ := h
  refine (Threshold.allCount_sustained ascending).anyPassed_iff.mpr
    ⟨threshold, hthreshold, fun back hback => ?_⟩
  obtain rfl : back = 0 := by omega
  exact ⟨Nat.zero_le _, (Threshold.metIn_iff_of_ascending read ascending).mpr hmet⟩

include sound hcandidate ascending in
/-- A result that is counted twice enacts the candidate only if it is enough by
itself. -/
theorem anyPassed_again_iff (below : current.epoch < .last) :
    Threshold.anyPassed candidate.schedule.thresholds
        (Threshold.sustained candidate.schedule.thresholds current.epoch
          (read ++ [current] ++ [current])) = true ↔
      candidate.schedule.PassedAtOnce current.stake := by
  have passed : ∀ result ∈ read, result.epoch ≤ current.epoch := fun result hresult =>
    Nat.le_of_lt ((List.pairwise_append.mp ascending).2.2 result hresult current
      (List.mem_singleton_self _))
  rw [Threshold.sustained_again passed below]
  exact (Threshold.allCount_sustained ascending).anyPassed_restart
    (sound.candidate candidate hcandidate).epochs_pos current.stake

end Counts

/-- On a history with the votes of a boundary, the boundary enacts the
candidate if it did so before and this can be repeated. -/
theorem run_enactsCandidate_again (sound : registry.Sound)
    (hcandidate : registry.candidate = some candidate) (closes : boundary.closes = true)
    (tallied : boundary.Tallied) (voted : history.Voted boundary.epoch) :
    ∃ enacts, (registry.enactsCandidate boundary).run history = (.ok enacts, history)
      ∧ ∀ after : History, after.shares = (history.recordVotes boundary.results).shares →
          ∃ again, (registry.enactsCandidate boundary).run after = (.ok again, after)
            ∧ (again = true ↔ enacts = true ∧ candidate.Repeatable boundary) := by
  cases hfind : boundary.results.find? fun result => result.candidate == candidate.id with
  -- without a result of its own, the candidate is not looked at
  | none =>
      refine ⟨false, run_enactsCandidate_of_silent hcandidate hfind, fun after _ => ?_⟩
      exact ⟨false, run_enactsCandidate_of_silent hcandidate hfind, by simp⟩
  | some current =>
      refine ⟨_, run_enactsCandidate_voted hcandidate closes hfind history, fun after hshares => ?_⟩
      refine ⟨_, run_enactsCandidate_voted hcandidate closes hfind after, ?_⟩
      have carried := List.mem_of_find?_eq_some hfind
      have howned := List.find?_some hfind
      have owned : current.candidate = candidate.id := beq_iff_eq.mp howned
      have stamped := tallied.stamped current carried
      have counted : ∀ e, after.share? candidate.id e
          = if e = boundary.epoch.next then some current.stake
            else history.share? candidate.id e := by
        intro e
        rw [History.share?, hshares, ← History.share?,
          History.share?_recordVotes tallied.stamped tallied.distinct, hfind]
        rfl
      rw [CandidateFork.repeatable_iff tallied carried owned, Bool.and_eq_true, Bool.and_eq_true,
        and_assoc]
      refine and_congr_right fun _ => ?_
      -- at the end of its window the recorded result is not read again; ahead of it, it is
      by_cases ended : candidate.schedule.maxEpoch ≤ boundary.epoch.next
      · rw [votesBefore_kept ended counted, and_iff_left (.inl ended)]
      · have within : boundary.epoch.next < candidate.schedule.maxEpoch := Nat.lt_of_not_le ended
        have below : boundary.epoch.next < .last :=
          Nat.lt_of_lt_of_le within (Nat.le_of_lt_succ candidate.schedule.maxEpoch.lt_limit)
        have below' := Epoch.lt_last_of_next below
        have ascending := votesBefore_ascending below' stamped (voted candidate.id)
        rw [votesBefore_again below' within owned stamped (voted candidate.id) counted,
          or_iff_right ended, ← stamped,
          anyPassed_again_iff sound hcandidate ascending (stamped ▸ below)]
        exact (and_iff_right_of_imp (anyPassed_of_passedAtOnce ascending)).symm

end Candidate

/-- The answers of a boundary that is processed twice. -/
inductive Repeats (boundary : EpochBoundary) : Option (Fork ρ) → Option (Fork ρ) → Prop
  | same {enacted : Option (Fork ρ)}
      (h : ∀ candidate, enacted = some (.candidate candidate) → candidate.Repeatable boundary) :
      Repeats boundary enacted enacted
  | lost {candidate : CandidateFork ρ} (h : ¬ candidate.Repeatable boundary) :
      Repeats boundary (some (.candidate candidate)) none

namespace Repeats

variable {enacted again : Option (Fork ρ)}

theorem nothing : Repeats boundary (none : Option (Fork ρ)) none := by
  refine .same fun candidate h => ?_
  cases h

theorem fixed (fork : FixedFork ρ) :
    Repeats boundary (some (.fixed fork)) (some (.fixed fork)) := by
  refine .same fun candidate h => ?_
  cases h

/-- A boundary answers the same again unless what it enacted is a candidate
that the repetition misses. -/
theorem eq_iff (h : Repeats boundary enacted again) :
    again = enacted ↔
      ∀ candidate, enacted = some (.candidate candidate) → candidate.Repeatable boundary := by
  cases h with
  | same h => exact iff_of_true rfl h
  | lost h => exact iff_of_false nofun fun hall => h (hall _ rfl)

/-- What is enacted again is what was enacted, or nothing. -/
theorem eq_or_eq_none (h : Repeats boundary enacted again) :
    again = enacted ∨ again = none := by
  cases h with
  | same h => exact .inl rfl
  | lost h => exact .inr rfl

/-- The candidate is lost if it was enacted before and is not any more. -/
theorem of_enacts {candidate : CandidateFork ρ} {enacts again : Bool}
    (h : again = true ↔ enacts = true ∧ candidate.Repeatable boundary) :
    Repeats boundary (if enacts then some (.candidate candidate) else none)
      (if again then some (.candidate candidate) else none) := by
  cases again with
  | true =>
      obtain ⟨rfl, hrepeatable⟩ := h.mp rfl
      refine .same fun other hother => ?_
      cases hother
      exact hrepeatable
  | false =>
      cases enacts with
      | false => exact .nothing
      | true => exact .lost fun hrepeatable => Bool.false_ne_true (h.mpr ⟨rfl, hrepeatable⟩)

end Repeats

/-- Only a candidate that there is has a link to it. -/
theorem exists_candidate_of_link? {current : String}
    (h : registry.link? current = some .candidate) :
    ∃ candidate, registry.candidate = some candidate := by
  obtain ⟨index, -, hindex⟩ := Option.bind_eq_some_iff.mp h
  unfold linkAt at hindex
  split at hindex
  · cases hindex
  · split at hindex
    · next hsome => exact Option.isSome_iff_exists.mp hsome
    · cases hindex

/-- On a history with its votes, a boundary makes active what it did before,
unless that was the candidate and cannot be repeated. -/
theorem run_enacted?_again (sound : registry.Sound) (closes : boundary.closes = true)
    (tallied : boundary.Tallied) (voted : history.Voted boundary.epoch) (current : String) :
    ∃ enacted, (registry.enacted? current boundary).run history = (.ok enacted, history)
      ∧ ∀ after : History, after.shares = (history.recordVotes boundary.results).shares →
          ∃ again, (registry.enacted? current boundary).run after = (.ok again, after)
            ∧ Repeats boundary enacted again := by
  cases hlink : registry.link? current with
  | none =>
      rw [enacted?, hlink]
      exact ⟨none, rfl, fun after _ => ⟨none, rfl, .nothing⟩⟩
  | some link =>
      cases link with
      | fixed index =>
          -- a fixed fork is decided on without the votes
          rw [enacted?, hlink]
          dsimp only
          cases registry.fixed[index]? with
          | none => exact ⟨none, rfl, fun after _ => ⟨none, rfl, .nothing⟩⟩
          | some fork =>
              dsimp only
              split
              · exact ⟨some (.fixed fork), rfl, fun after _ => ⟨_, rfl, .fixed fork⟩⟩
              · exact ⟨none, rfl, fun after _ => ⟨none, rfl, .nothing⟩⟩
      | candidate =>
          obtain ⟨candidate, hcandidate⟩ := exists_candidate_of_link? hlink
          obtain ⟨enacts, hfirst, hsecond⟩ :=
            run_enactsCandidate_again sound hcandidate closes tallied voted
          refine ⟨_, run_enacted?_of_link hlink hfirst, fun after hshares => ?_⟩
          obtain ⟨again, hagain, hiff⟩ := hsecond after hshares
          refine ⟨_, run_enacted?_of_link hlink hagain, ?_⟩
          rw [hcandidate]
          exact .of_enacts hiff

-- ================================================================ processing twice

/-- Once it is recorded, what became active is in the history. -/
theorem of_recordEnacted {epoch : Epoch} {enacted answer : Option (Fork ρ)}
    (h : (recordEnacted epoch enacted).run history = (.ok answer, after)) :
    answer = enacted ∧ after.shares = history.shares
      ∧ ∀ fork, enacted = some fork → after.activations[epoch]? = some fork.name := by
  cases enacted with
  | none =>
      cases h
      exact ⟨rfl, rfl, nofun⟩
  | some fork =>
      obtain ⟨⟨⟩, middle, hrecord, hanswer⟩ := exists_of_run_bind_ok h
      cases hanswer
      obtain ⟨hextends, hthere⟩ :=
        History.extends_of_recordActivation (recordActivation_of_run hrecord)
      refine ⟨rfl, hextends.shares, fun other hother => ?_⟩
      cases hother
      exact hthere

/-- What is in the history is not recorded again. -/
theorem run_recordEnacted_of_recorded {epoch : Epoch} {enacted : Option (Fork ρ)}
    (h : ∀ fork, enacted = some fork → history.activations[epoch]? = some fork.name) :
    (recordEnacted epoch enacted).run history = (.ok enacted, history) := by
  unfold recordEnacted
  cases enacted with
  | none => rfl
  | some fork =>
      dsimp only
      rw [run_bind_ok (run_recordActivation_of_recorded (h fork rfl))]
      rfl

/-- A boundary is processed under a known fork only. -/
theorem known_of_processBoundary {current : String} {enacted : Option (Fork ρ)}
    (h : (registry.processBoundary current boundary).run history = (.ok enacted, after)) :
    ¬ (registry.byName? current).isNone = true := by
  intro unknown
  unfold processBoundary at h
  dsimp only at h
  rw [if_pos unknown] at h
  cases h

/-- On a history with its votes and with what it makes active, a boundary
changes nothing. -/
theorem run_processBoundary_of_recorded {current : String}
    (known : ¬ (registry.byName? current).isNone = true) (closes : boundary.closes = true)
    (tallied : boundary.Tallied)
    (hshares : after.shares = (history.recordVotes boundary.results).shares)
    {again : Option (Fork ρ)}
    (hagain : (registry.enacted? current boundary).run after = (.ok again, after))
    (hthere : ∀ fork, again = some fork →
      after.activations[boundary.epoch.next]? = some fork.name) :
    (registry.processBoundary current boundary).run after = (.ok again, after) := by
  rw [run_processBoundary_of_enacted known closes hagain,
    History.recordVotes_again tallied hshares]
  exact run_recordEnacted_of_recorded hthere

/-- A boundary that is processed again, on the history that it left, succeeds
and changes nothing. It gives its answer again, unless it enacted the candidate
and this cannot be repeated; then nothing becomes active. -/
theorem repeated_boundary {forks : List (Fork ρ)} (created : create forks = .ok registry)
    (tallied : boundary.Tallied) (voted : history.Voted boundary.epoch) {current : String}
    {enacted : Option (Fork ρ)}
    (h : (registry.processBoundary current boundary).run history = (.ok enacted, after)) :
    ∃ again, (registry.processBoundary current boundary).run after = (.ok again, after)
      ∧ (again = enacted ↔
          ∀ candidate, enacted = some (.candidate candidate) → candidate.Repeatable boundary)
      ∧ (again = enacted ∨ again = none) := by
  have known := known_of_processBoundary h
  cases closes : boundary.closes with
  | false =>
      rw [run_processBoundary_of_open known closes] at h
      cases h
      exact ⟨none, run_processBoundary_of_open known closes, iff_of_true rfl nofun, .inl rfl⟩
  | true =>
      obtain ⟨decided, hfirst, hsecond⟩ :=
        run_enacted?_again (sound_of_create created) closes tallied voted current
      rw [run_processBoundary_of_enacted known closes hfirst] at h
      obtain ⟨rfl, hshares, hthere⟩ := of_recordEnacted h
      obtain ⟨again, hagain, repeats⟩ := hsecond after hshares
      refine ⟨again, run_processBoundary_of_recorded known closes tallied hshares hagain
        fun fork hfork => ?_, repeats.eq_iff, repeats.eq_or_eq_none⟩
      -- what is answered again was recorded the first time
      rcases repeats.eq_or_eq_none with rfl | rfl
      · exact hthere fork hfork
      · cases hfork

/-- The votes of an epoch for `halfForTwo`. -/
def votesIn (epoch : Epoch) : History := .recordVotes .empty [⟨epoch, halfForTwo.id, 6000⟩]

/-- A boundary that closes the epoch with votes for `halfForTwo`. -/
def votingBoundary (epoch : Epoch) : EpochBoundary :=
  ⟨epoch, true, [⟨epoch.next, halfForTwo.id, 5500⟩]⟩

theorem tallied_votingBoundary (epoch : Epoch) : (votingBoundary epoch).Tallied :=
  ⟨fun result hresult => by rw [List.mem_singleton.mp hresult]; rfl, List.nodup_singleton _⟩

/-- No result of that history is past the epoch. -/
theorem voted_votesIn (epoch : Epoch) : (votesIn epoch).Voted epoch := by
  intro id e hlt
  have hne : (⟨halfForTwo.id, epoch⟩ : VoteKey) ≠ ⟨id, e⟩ := by
    rintro ⟨⟩
    exact Nat.lt_irrefl _ hlt
  show (History.empty.recordVote ⟨epoch, halfForTwo.id, 6000⟩).shares[_]? = none
  rw [History.shares_recordVote, if_neg hne, History.empty, Std.ExtTreeMap.getElem?_empty]

/-- The decision of such a boundary can be computed. -/
theorem run_enactsCandidate_votingBoundary (epoch : Epoch) (history : History) {enacts : Bool}
    (h : (halfForTwo.schedule.windowContains epoch.next
      && Threshold.anyPassed halfForTwo.schedule.thresholds
          (Threshold.sustained halfForTwo.schedule.thresholds epoch.next
            (votesBefore halfForTwo history (votingBoundary epoch)
              ++ [⟨epoch.next, halfForTwo.id, 5500⟩]))) = enacts) :
    (fixedAndCandidate.enactsCandidate (votingBoundary epoch)).run history
      = (.ok enacts, history) := by
  have carried : (votingBoundary epoch).results.find?
      (fun result => result.candidate == halfForTwo.id) = some ⟨epoch.next, halfForTwo.id, 5500⟩ :=
    List.find?_cons_of_pos (beq_self_eq_true _)
  rw [← h]
  exact run_enactsCandidate_voted rfl rfl carried history

/-- The history after such a boundary, if it enacts the candidate. -/
def enactedBy (epoch : Epoch) : History :=
  ((votesIn epoch).recordVotes (votingBoundary epoch).results).activate epoch.next "second"

theorem link?_first : fixedAndCandidate.link? "first" = some .candidate := by decide

theorem known_first : ¬ (fixedAndCandidate.byName? "first").isNone = true := by decide

/-- A boundary that enacts the candidate records the vote and the
activation. -/
theorem run_processBoundary_votingBoundary {epoch : Epoch}
    (h : (fixedAndCandidate.enactsCandidate (votingBoundary epoch)).run (votesIn epoch)
      = (.ok true, votesIn epoch)) :
    (fixedAndCandidate.processBoundary "first" (votingBoundary epoch)).run (votesIn epoch)
      = (.ok (some (.candidate halfForTwo)), enactedBy epoch) := by
  rw [run_processBoundary_of_enacted known_first rfl (run_enacted?_of_link link?_first h)]
  refine run_bind_ok (run_recordActivation_of_ok ?_)
  rw [History.recordActivation, History.activations_recordVotes, votesIn,
    History.activations_recordVotes, History.empty, Std.ExtTreeMap.getElem?_empty]
  rfl

/-- At the end of the window, the enactment of the candidate is answered
again. -/
theorem enactment_answered_again :
    (fixedAndCandidate.processBoundary "first" (votingBoundary (.clamp 4))).run
          (votesIn (.clamp 4)) = (.ok (some (.candidate halfForTwo)), enactedBy (.clamp 4))
      ∧ (fixedAndCandidate.processBoundary "first" (votingBoundary (.clamp 4))).run
          (enactedBy (.clamp 4)) = (.ok (some (.candidate halfForTwo)), enactedBy (.clamp 4)) := by
  have created : create [.fixed ⟨"first", .genesis, ()⟩, .candidate halfForTwo]
      = .ok fixedAndCandidate := rfl
  have first := run_processBoundary_votingBoundary
    (run_enactsCandidate_votingBoundary (.clamp 4) (votesIn (.clamp 4)) (by decide +kernel))
  obtain ⟨again, hagain, hsame, -⟩ :=
    repeated_boundary created (tallied_votingBoundary _) (voted_votesIn _) first
  have repeatable : halfForTwo.Repeatable (votingBoundary (.clamp 4)) := .inl (by decide)
  obtain rfl := hsame.mpr fun candidate hcandidate => by
    cases hcandidate
    exact repeatable
  exact ⟨first, hagain⟩

/-- Ahead of the end of the window, it is not. -/
theorem enactment_answered_once :
    create [.fixed ⟨"first", .genesis, ()⟩, .candidate halfForTwo] = .ok fixedAndCandidate
      ∧ (votingBoundary (.clamp 1)).Tallied
      ∧ (votesIn (.clamp 1)).Voted (votingBoundary (.clamp 1)).epoch
      ∧ (fixedAndCandidate.processBoundary "first" (votingBoundary (.clamp 1))).run
            (votesIn (.clamp 1)) = (.ok (some (.candidate halfForTwo)), enactedBy (.clamp 1))
      ∧ (fixedAndCandidate.processBoundary "first" (votingBoundary (.clamp 1))).run
            (enactedBy (.clamp 1)) = (.ok none, enactedBy (.clamp 1)) := by
  have first := run_processBoundary_votingBoundary
    (run_enactsCandidate_votingBoundary (.clamp 1) (votesIn (.clamp 1)) (by decide +kernel))
  have second := run_enacted?_of_link link?_first
    (run_enactsCandidate_votingBoundary (.clamp 1) (enactedBy (.clamp 1))
      (show _ = false by decide +kernel))
  have hshares : (enactedBy (.clamp 1)).shares
      = ((votesIn (.clamp 1)).recordVotes (votingBoundary (.clamp 1)).results).shares := rfl
  exact ⟨rfl, tallied_votingBoundary _, voted_votesIn _, first,
    run_processBoundary_of_recorded known_first rfl (tallied_votingBoundary _) hshares second nofun⟩

end Registry

end LedgerCore
