/-
What the counters of thresholds count. A streak is a row of consecutive
epochs, ending at a given one, in each of which some result meets the
threshold; a counter is exact (`Threshold.Counts`) if it reaches precisely
the lengths for which there is a streak.

# One result more

Everything rests on two facts about exact counters: where no result meets
the threshold the exact counter is none (`counts_of_not_met`), and from one
epoch to the next it goes up by one or back to none (`Counts.next`). An
advance over a gap of epochs is the second fact right behind the first.
Exactness is always said about the whole list of results, not about the part
read so far; for results in ascending order it makes no difference.
-/
import LedgerCore.Fork.Vote
import Mathlib.Data.List.Forall2

namespace LedgerCore

/-- Results in strictly ascending order of epochs. -/
def Ascending (results : List VotingResult) : Prop :=
  results.Pairwise fun a b => a.epoch < b.epoch

namespace Threshold

variable {threshold : Threshold} {results : List VotingResult}

-- ================================================================= streaks

/-- Some result for that epoch meets the threshold. -/
def MetIn (threshold : Threshold) (results : List VotingResult) (epoch : Nat) : Prop :=
  ∃ result ∈ results, result.epoch.toNat = epoch ∧ threshold.isMetBy result.stake = true

/-- The threshold is met in each of so many epochs that end with the given
one. None of them may lie before the first epoch. -/
def Streak (threshold : Threshold) (results : List VotingResult) (epoch length : Nat) : Prop :=
  ∀ back < length, back ≤ epoch ∧ threshold.MetIn results (epoch - back)

instance (threshold : Threshold) (results : List VotingResult) (epoch : Nat) :
    Decidable (threshold.MetIn results epoch) :=
  inferInstanceAs (Decidable (∃ result ∈ results, _))

instance (threshold : Threshold) (results : List VotingResult) (epoch length : Nat) :
    Decidable (threshold.Streak results epoch length) :=
  inferInstanceAs (Decidable (∀ back < length, _))

theorem streak_zero (epoch : Nat) : threshold.Streak results epoch 0 := by
  intro back hback
  exact absurd hback (Nat.not_lt_zero _)

theorem Streak.met {epoch length : Nat} (h : threshold.Streak results epoch length)
    (hlength : 0 < length) : threshold.MetIn results epoch := (h 0 hlength).2

/-- A streak up to the next epoch is one up to this epoch with one more. -/
theorem streak_succ_succ {epoch length : Nat} :
    threshold.Streak results (epoch + 1) (length + 1) ↔
      threshold.MetIn results (epoch + 1) ∧ threshold.Streak results epoch length := by
  constructor
  · intro h
    refine ⟨h.met (Nat.succ_pos _), fun back hback => ?_⟩
    obtain ⟨hle, hmet⟩ := h (back + 1) (Nat.succ_lt_succ hback)
    rw [Nat.add_sub_add_right] at hmet
    exact ⟨Nat.le_of_succ_le_succ hle, hmet⟩
  · rintro ⟨hmet, h⟩ back hback
    cases back with
    | zero => exact ⟨Nat.zero_le _, hmet⟩
    | succ back =>
        obtain ⟨hle, hmet⟩ := h back (Nat.lt_of_succ_lt_succ hback)
        rw [Nat.add_sub_add_right]
        exact ⟨Nat.succ_le_succ hle, hmet⟩

/-- Before the first epoch nothing is met. -/
theorem streak_genesis_succ {length : Nat} :
    threshold.Streak results 0 (length + 1) ↔ threshold.MetIn results 0 ∧ length = 0 := by
  constructor
  · intro h
    have hlast := (h length (Nat.lt_succ_self _)).1
    exact ⟨h.met (Nat.succ_pos _), Nat.le_zero.mp hlast⟩
  · rintro ⟨hmet, rfl⟩ back hback
    obtain rfl : back = 0 := by omega
    exact ⟨Nat.le_refl _, hmet⟩

-- ========================================================== exact counters

/-- A counter is exact at an epoch: it reaches the lengths of the streaks
that end there, and no others. -/
def Counts (threshold : Threshold) (results : List VotingResult) (epoch : Nat)
    (count : EpochSpan) : Prop :=
  ∀ wanted : EpochSpan, wanted ≤ count ↔ threshold.Streak results epoch wanted.toNat

/-- One up, a counter reaches a length if it had reached the one before, also
at the limit of its range. -/
private theorem le_succ_iff {wanted count : EpochSpan} {length : Nat}
    (h : wanted.toNat = length + 1) : wanted ≤ count.succ ↔ length ≤ count.toNat := by
  have hlimit := wanted.lt_limit
  simp only [EpochSpan.le_def, EpochSpan.succ, EpochSpan.toNat_clamp]
  omega

/-- Where the threshold is not met there is nothing to count. -/
theorem counts_of_not_met {epoch : Nat} (h : ¬ threshold.MetIn results epoch) :
    threshold.Counts results epoch .none := by
  intro wanted
  rcases Nat.eq_zero_or_pos wanted.toNat with hzero | hpos
  · rw [hzero]
    exact iff_of_true (Nat.le_of_eq hzero) (streak_zero epoch)
  · exact iff_of_false (Nat.not_le_of_gt hpos) fun streak => h (streak.met hpos)

/-- From one epoch to the next, an exact counter goes up by one or back to
none. -/
theorem Counts.next {epoch : Nat} {count : EpochSpan} {met : Bool}
    (h : threshold.Counts results epoch count)
    (hmet : met = true ↔ threshold.MetIn results (epoch + 1)) :
    threshold.Counts results (epoch + 1) (if met then count.succ else .none) := by
  cases met with
  | false => exact counts_of_not_met fun hmetIn => Bool.false_ne_true (hmet.mpr hmetIn)
  | true =>
      intro wanted
      cases hwanted : wanted.toNat with
      | zero => exact iff_of_true (by simp [EpochSpan.le_def, hwanted]) (streak_zero _)
      | succ length =>
          have hshorter := h ⟨length, by have := wanted.lt_limit; omega⟩
          rw [streak_succ_succ, and_iff_right (hmet.mp rfl), ← hshorter]
          exact le_succ_iff hwanted

/-- At the first epoch, a counter counts that epoch or nothing. -/
theorem counts_genesis {met : Bool} (hmet : met = true ↔ threshold.MetIn results 0) :
    threshold.Counts results 0 (if met then EpochSpan.none.succ else .none) := by
  cases met with
  | false => exact counts_of_not_met fun hmetIn => Bool.false_ne_true (hmet.mpr hmetIn)
  | true =>
      intro wanted
      cases hwanted : wanted.toNat with
      | zero => exact iff_of_true (by simp [EpochSpan.le_def, hwanted]) (streak_zero _)
      | succ length =>
          rw [streak_genesis_succ, and_iff_right (hmet.mp rfl), ← Nat.le_zero]
          exact le_succ_iff hwanted

-- ========================================================= reading results

/-- In ascending results, those read before a given one are for earlier
epochs and those behind it for later ones. -/
theorem metIn_iff_of_ascending (read : List VotingResult) {rest : List VotingResult}
    {result : VotingResult} (ascending : Ascending (read ++ result :: rest)) :
    threshold.MetIn (read ++ result :: rest) result.epoch.toNat ↔
      threshold.isMetBy result.stake = true := by
  obtain ⟨-, hrest, hread⟩ := List.pairwise_append.mp ascending
  constructor
  · intro h
    obtain ⟨other, hother, hepoch, hmet⟩ := h
    rcases List.mem_append.mp hother with hbefore | hafter
    · exact absurd hepoch (Nat.ne_of_lt (hread other hbefore result List.mem_cons_self))
    · rcases List.mem_cons.mp hafter with rfl | hafter
      · exact hmet
      · exact absurd hepoch (Nat.ne_of_gt (List.rel_of_pairwise_cons hrest hafter))
  · intro hmet
    exact ⟨result, List.mem_append_right _ List.mem_cons_self, rfl, hmet⟩

/-- Nothing is met between two neighbours among ascending results. -/
theorem not_metIn_between {read rest : List VotingResult} {last next : VotingResult}
    (ascending : Ascending (read ++ last :: next :: rest)) {epoch : Nat}
    (hlast : last.epoch.toNat < epoch) (hnext : epoch < next.epoch.toNat) :
    ¬ threshold.MetIn (read ++ last :: next :: rest) epoch := by
  intro h
  obtain ⟨result, hresult, rfl, -⟩ := h
  obtain ⟨-, hrest, hread⟩ := List.pairwise_append.mp ascending
  rcases List.mem_append.mp hresult with hbefore | hafter
  · have hlt := Epoch.lt_def.mp (hread result hbefore last List.mem_cons_self)
    omega
  · rcases List.mem_cons.mp hafter with rfl | hafter
    · exact Nat.lt_irrefl _ hlast
    · rcases List.mem_cons.mp hafter with rfl | hafter
      · exact Nat.lt_irrefl _ hnext
      · have hlt := Epoch.lt_def.mp
          (List.rel_of_pairwise_cons (List.pairwise_cons.mp hrest).2 hafter)
        omega

/-- Nothing is met before the first of ascending results. -/
theorem not_metIn_before {rest : List VotingResult} {first : VotingResult}
    (ascending : Ascending (first :: rest)) {epoch : Nat} (hepoch : epoch < first.epoch.toNat) :
    ¬ threshold.MetIn (first :: rest) epoch := by
  intro h
  obtain ⟨result, hresult, rfl, -⟩ := h
  rcases List.mem_cons.mp hresult with rfl | hafter
  · exact Nat.lt_irrefl _ hepoch
  · have hlt := Epoch.lt_def.mp (List.rel_of_pairwise_cons ascending hafter)
    omega

/-- The first result makes a counter exact. -/
theorem counts_first {rest : List VotingResult} {first : VotingResult}
    (ascending : Ascending (first :: rest)) :
    threshold.Counts (first :: rest) first.epoch.toNat
      (threshold.advance first.stake true .none) := by
  have hmet : threshold.isMetBy first.stake = true ↔
      threshold.MetIn (first :: rest) first.epoch.toNat :=
    (metIn_iff_of_ascending [] ascending).symm
  unfold advance
  cases hepoch : first.epoch.toNat with
  | zero =>
      rw [hepoch] at hmet
      exact counts_genesis hmet
  | succ epoch =>
      rw [hepoch] at hmet
      exact (counts_of_not_met (not_metIn_before ascending (by omega))).next hmet

/-- A further result keeps a counter exact, whether or not it is for the
epoch right behind the last one. -/
theorem Counts.advance {read rest : List VotingResult} {last next : VotingResult}
    {count : EpochSpan} (ascending : Ascending (read ++ last :: next :: rest))
    (h : threshold.Counts (read ++ last :: next :: rest) last.epoch.toNat count) :
    threshold.Counts (read ++ last :: next :: rest) next.epoch.toNat
      (threshold.advance next.stake (next.epoch == last.epoch.next) count) := by
  have hlt : last.epoch < next.epoch :=
    List.rel_of_pairwise_cons (List.pairwise_append.mp ascending).2.1 List.mem_cons_self
  have hbefore : last.epoch < .last :=
    Nat.lt_of_lt_of_le hlt (Nat.le_of_lt_succ next.epoch.lt_limit)
  have hmet : threshold.isMetBy next.stake = true ↔
      threshold.MetIn (read ++ last :: next :: rest) next.epoch.toNat := by
    rw [List.append_cons] at ascending ⊢
    exact (metIn_iff_of_ascending (read ++ [last]) ascending).symm
  obtain ⟨epoch, hepoch⟩ := Nat.exists_eq_add_one_of_ne_zero (Nat.ne_zero_of_lt hlt)
  rw [hepoch] at hmet ⊢
  unfold Threshold.advance
  by_cases hconsecutive : next.epoch = last.epoch.next
  · obtain rfl : epoch = last.epoch.toNat := by
      rw [hconsecutive, Epoch.toNat_next_of_lt hbefore] at hepoch
      omega
    rw [if_pos (beq_iff_eq.mpr hconsecutive)]
    exact h.next hmet
  -- behind a gap, no result is for the epoch before
  · have hgap : last.epoch.toNat < epoch := by
      rcases Nat.lt_or_ge last.epoch.toNat epoch with hgap | hle
      · exact hgap
      · refine absurd (Epoch.ext ?_) hconsecutive
        rw [Epoch.toNat_next_of_lt hbefore]
        have := Epoch.lt_def.mp hlt
        omega
    rw [if_neg (fun heq => hconsecutive (beq_iff_eq.mp heq))]
    exact (counts_of_not_met (not_metIn_between ascending hgap (by omega))).next hmet

-- ============================================================ all counters

/-- Each of some thresholds has an exact counter. -/
def AllCount (thresholds : List Threshold) (results : List VotingResult) (epoch : Nat)
    (counts : List EpochSpan) : Prop :=
  List.Forall₂ (fun threshold count => threshold.Counts results epoch count) thresholds counts

variable {thresholds : List Threshold}

variable (thresholds) in
/-- The first result starts every counter anew, so each counts that epoch or
nothing. -/
theorem allCount_first {rest : List VotingResult} {first : VotingResult}
    (ascending : Ascending (first :: rest)) :
    AllCount thresholds (first :: rest) first.epoch.toNat
      (advanceAll thresholds first.stake true (noCounts thresholds)) := by
  induction thresholds with
  | nil => exact .nil
  | cons threshold thresholds ih => exact .cons (counts_first ascending) ih

/-- Every further result advances every counter to its own epoch. -/
theorem AllCount.advance {read rest : List VotingResult} {last next : VotingResult}
    {counts : List EpochSpan} (ascending : Ascending (read ++ last :: next :: rest))
    (h : AllCount thresholds (read ++ last :: next :: rest) last.epoch.toNat counts) :
    AllCount thresholds (read ++ last :: next :: rest) next.epoch.toNat
      (advanceAll thresholds next.stake (next.epoch == last.epoch.next) counts) := by
  induction h with
  | nil => exact .nil
  | cons hcount _ ih => exact .cons (hcount.advance ascending) ih

/-- With exact counters, a threshold is passed if there is a streak as long
as it asks for. -/
theorem AllCount.anyPassed_iff {epoch : Nat} {counts : List EpochSpan}
    (h : AllCount thresholds results epoch counts) :
    anyPassed thresholds counts = true ↔
      ∃ threshold ∈ thresholds, threshold.Streak results epoch threshold.epochs.toNat := by
  induction h with
  | nil => simp [anyPassed]
  | @cons threshold count thresholds counts hcount _ ih =>
      have hstep : anyPassed (threshold :: thresholds) (count :: counts)
          = (decide (threshold.epochs ≤ count) || anyPassed thresholds counts) := rfl
      rw [hstep, Bool.or_eq_true, decide_eq_true_eq, hcount threshold.epochs, ih]
      simp only [List.mem_cons, exists_eq_or_imp]

/-- Reading up to an epoch stops at a result that is the last of all or is
past that epoch, with counters that are exact there. -/
theorem AllCount.countUpTo (target : Epoch) {rest : List VotingResult} :
    ∀ {read : List VotingResult} {last : VotingResult} {counts : List EpochSpan},
      Ascending (read ++ last :: rest) →
      AllCount thresholds (read ++ last :: rest) last.epoch.toNat counts →
      ∃ counts' last' before after,
        countUpTo thresholds target counts last rest = (counts', last')
          ∧ read ++ last :: rest = before ++ last' :: after
          ∧ AllCount thresholds (read ++ last :: rest) last'.epoch.toNat counts'
          ∧ (after = [] ∨ target < last'.epoch) := by
  induction rest with
  | nil =>
      intro read last counts ascending h
      exact ⟨counts, last, read, [], rfl, rfl, h, .inl rfl⟩
  | cons next rest ih =>
      intro read last counts ascending h
      by_cases hle : last.epoch ≤ target
      · rw [Threshold.countUpTo, if_pos hle, List.append_cons]
        rw [List.append_cons] at ascending
        refine ih ascending ?_
        rw [← List.append_cons] at ascending ⊢
        exact h.advance ascending
      · rw [Threshold.countUpTo, if_neg hle]
        exact ⟨counts, last, read, next :: rest, rfl, rfl, h, .inr (Nat.lt_of_not_le hle)⟩

/-- Over ascending results that end with a given epoch, the counters for that
epoch are exact. -/
theorem allCount_sustained {read : List VotingResult} {last : VotingResult}
    (ascending : Ascending (read ++ [last])) :
    AllCount thresholds (read ++ [last]) last.epoch.toNat
      (sustained thresholds last.epoch (read ++ [last])) := by
  obtain ⟨first, rest, hall⟩ : ∃ first rest, read ++ [last] = first :: rest :=
    List.exists_cons_of_ne_nil (List.append_ne_nil_of_right_ne_nil read (List.cons_ne_nil last []))
  have hfirst : AllCount thresholds ([] ++ first :: rest) first.epoch.toNat
      (advanceAll thresholds first.stake true (noCounts thresholds)) :=
    allCount_first thresholds (hall ▸ ascending)
  obtain ⟨counts, reached, before, after, hcount, heq, hexact, hstop⟩ :=
    hfirst.countUpTo last.epoch (hall ▸ ascending)
  rw [List.nil_append, ← hall] at heq hexact
  -- the last result is not past its own epoch, so all of them are read
  have hlast : reached = last := by
    rcases hstop with rfl | hpast
    · exact (List.append_inj_right' heq rfl |> List.cons.inj).1.symm
    · have hmem : reached ∈ read ++ [last] := heq ▸ List.mem_append_right _ List.mem_cons_self
      rcases List.mem_append.mp hmem with hread | hlast
      · have hlt := (List.pairwise_append.mp ascending).2.2 reached hread last
          (List.mem_singleton_self _)
        exact absurd hpast (Nat.lt_asymm hlt)
      · exact List.mem_singleton.mp hlast
  rw [hall, sustained, hcount]
  dsimp only
  rw [hlast, if_pos rfl, ← hall]
  exact hlast ▸ hexact

end Threshold

end LedgerCore
