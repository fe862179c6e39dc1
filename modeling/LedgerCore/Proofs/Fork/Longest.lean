/-
The counters as lengths. Among the streaks that end at an epoch one is the
longest, and its length is what the counter of a threshold comes to there.

# The longest streak

A streak takes a result for each of its epochs, so it is no longer than the
results are many (`Streak.le_length`), and the longest one is found among
finitely many (`longestStreak`). An exact counter is its length, up to where
counters end (`Counts.eq_clamp`). They end at one epoch less than there are,
which only matters where every epoch there is has a result.

# Where the results end

Reading stops at the last result, or at the first that is past the epoch asked
for. In ascending results the last one is past it then as well, so which of
the two it was makes no difference: what counts is whether the results end
with that epoch (`sustained_of_ends_elsewhere`).
-/
import LedgerCore.Proofs.Fork.Streak
import Mathlib.Data.List.Nodup
import Mathlib.Data.List.Perm.Subperm
import Mathlib.Data.Nat.Find
import Mathlib.Order.Bounds.Defs

namespace LedgerCore

instance (results : List VotingResult) : Decidable (Ascending results) :=
  inferInstanceAs (Decidable (results.Pairwise _))

/-- No result is past the last one. -/
theorem Ascending.le_getLast {results : List VotingResult} {last result : VotingResult}
    (ascending : Ascending results) (ends : results.getLast? = some last)
    (h : result ∈ results) : result.epoch ≤ last.epoch := by
  obtain ⟨read, rfl⟩ := List.getLast?_eq_some_iff.mp ends
  rcases List.mem_append.mp h with before | here
  · exact Nat.le_of_lt ((List.pairwise_append.mp ascending).2.2 result before last
      (List.mem_singleton_self last))
  · rw [List.mem_singleton.mp here]
    exact Nat.le_refl _

namespace Threshold

variable {threshold : Threshold} {thresholds : List Threshold} {results : List VotingResult}
  {epoch length : Nat}

-- ========================================================= the longest streak

theorem Streak.mono {shorter : Nat} (streak : threshold.Streak results epoch length)
    (h : shorter ≤ length) : threshold.Streak results epoch shorter :=
  fun back hback => streak back (Nat.lt_of_lt_of_le hback h)

/-- A streak is no longer than the results are many: each of its epochs has
one. -/
theorem Streak.le_length (streak : threshold.Streak results epoch length) :
    length ≤ results.length := by
  have distinct : ((List.range length).map (epoch - ·)).Nodup := by
    refine List.Nodup.map_on (fun back hback other hother same => ?_) List.nodup_range
    have hle := (streak back (List.mem_range.mp hback)).1
    have hle' := (streak other (List.mem_range.mp hother)).1
    omega
  have covered : (List.range length).map (epoch - ·) ⊆ results.map (·.epoch.toNat) := by
    intro e he
    obtain ⟨back, hback, rfl⟩ := List.mem_map.mp he
    obtain ⟨-, result, hmem, hepoch, -⟩ := streak back (List.mem_range.mp hback)
    exact List.mem_map.mpr ⟨result, hmem, hepoch⟩
  have shorter := (List.subperm_of_subset distinct covered).length_le
  rwa [List.length_map, List.length_map, List.length_range] at shorter

/-- An epoch in which the threshold is not met ends every streak behind it. -/
theorem Streak.le_sub {failing : Nat} (streak : threshold.Streak results epoch length)
    (hle : failing ≤ epoch) (failed : ¬ threshold.MetIn results failing) :
    length ≤ epoch - failing := by
  refine Nat.le_of_not_lt fun reaches => failed ?_
  have met := (streak (epoch - failing) reaches).2
  rwa [Nat.sub_sub_self hle] at met

/-- How long the longest streak is that ends with an epoch. -/
def longestStreak (threshold : Threshold) (results : List VotingResult) (epoch : Nat) : Nat :=
  Nat.findGreatest (threshold.Streak results epoch) results.length

/-- There is a longest streak, since a streak needs a result for each of its
epochs. -/
theorem isGreatest_longestStreak (threshold : Threshold) (results : List VotingResult)
    (epoch : Nat) :
    IsGreatest {length | threshold.Streak results epoch length}
      (threshold.longestStreak results epoch) := by
  constructor
  · exact Nat.findGreatest_spec (P := threshold.Streak results epoch) (Nat.zero_le _)
      (streak_zero epoch)
  · intro length streak
    exact Nat.le_findGreatest streak.le_length streak

/-- An exact counter is the length of the longest streak, or as much of it as
a counter can hold. -/
theorem Counts.eq_clamp {count : EpochSpan} (h : threshold.Counts results epoch count) :
    count = .clamp (threshold.longestStreak results epoch) := by
  obtain ⟨streak, greatest⟩ := isGreatest_longestStreak threshold results epoch
  have reached : count.toNat ≤ threshold.longestStreak results epoch :=
    greatest ((h count).mp (Nat.le_refl _))
  have held : EpochSpan.clamp (threshold.longestStreak results epoch) ≤ count :=
    (h _).mpr (streak.mono (Nat.min_le_left ..))
  have hlimit := count.lt_limit
  rw [EpochSpan.le_def, EpochSpan.toNat_clamp] at held
  ext
  rw [EpochSpan.toNat_clamp]
  omega

/-- Counters that count streaks are the lengths of the longest ones, as far
as they go. -/
theorem AllCount.eq_map_clamp {counts : List EpochSpan}
    (h : AllCount thresholds results epoch counts) :
    counts = thresholds.map fun threshold => .clamp (threshold.longestStreak results epoch) := by
  induction h with
  | nil => rfl
  | cons counts _ ih => rw [List.map_cons, ← counts.eq_clamp, ← ih]

-- ====================================================== where the results end

variable {target : Epoch}

/-- Results that end elsewhere count for nothing, also where they are read on
past the epoch asked for. -/
theorem sustained_of_ends_elsewhere (ascending : Ascending results)
    (elsewhere : ∀ last, results.getLast? = some last → last.epoch ≠ target) :
    sustained thresholds target results = noCounts thresholds := by
  cases results with
  | nil => rfl
  | cons first rest =>
      have begun : AllCount thresholds ([] ++ first :: rest) first.epoch.toNat
          (advanceAll thresholds first.stake true (noCounts thresholds)) :=
        allCount_first thresholds ascending
      obtain ⟨counts, last, before, after, counted, split, -, stops⟩ :=
        begun.countUpTo target ascending
      rw [List.nil_append] at split
      have stale : last.epoch ≠ target := by
        rcases stops with rfl | past
        · exact elsewhere last (by rw [split]; exact List.getLast?_concat)
        · exact fun here => Nat.lt_irrefl _ (here ▸ past)
      unfold sustained
      dsimp only
      rw [counted]
      exact if_neg stale

/-- The counters are the longest streaks if the results end with the epoch
asked for, and none otherwise. -/
theorem sustained_eq (thresholds : List Threshold) (target : Epoch)
    (ascending : Ascending results) :
    sustained thresholds target results
      = if results.getLast?.map VotingResult.epoch = some target then
          thresholds.map fun threshold => .clamp (threshold.longestStreak results target.toNat)
        else noCounts thresholds := by
  by_cases ends : results.getLast?.map VotingResult.epoch = some target
  · rw [if_pos ends]
    obtain ⟨last, hlast, rfl⟩ := Option.map_eq_some_iff.mp ends
    obtain ⟨read, rfl⟩ := List.getLast?_eq_some_iff.mp hlast
    exact (allCount_sustained ascending).eq_map_clamp
  · rw [if_neg ends]
    refine sustained_of_ends_elsewhere ascending fun last hlast here => ends ?_
    rw [hlast, ← here]
    rfl

/-- With fewer results than there are epochs, the counters hold the longest
streaks in full. -/
theorem toNat_sustained (thresholds : List Threshold) {target : Epoch}
    (ascending : Ascending results) (few : results.length < 0x10000000000000000)
    (ends : results.getLast?.map VotingResult.epoch = some target) :
    (sustained thresholds target results).map EpochSpan.toNat
      = thresholds.map (·.longestStreak results target.toNat) := by
  rw [sustained_eq thresholds target ascending, if_pos ends, List.map_map]
  refine List.map_congr_left fun threshold _ => ?_
  have held := Streak.le_length (isGreatest_longestStreak threshold results target.toNat).1
  rw [Function.comp_apply, EpochSpan.toNat_clamp]
  omega

/-- Read up to an epoch, results in ascending order make counters of longest
streaks, one for each threshold. If the results end with that epoch, a counter
is the length of the longest streak that ends there, or as much of it as it
can hold: all of it, unless there are results for all epochs. If they end
elsewhere, before it or past it, or there are none, nothing is counted. An
epoch without a result cuts a streak, and so does one with a result that fails
the threshold. -/
theorem sustained_counts_longest_streaks (thresholds : List Threshold) (target : Epoch)
    (ascending : Ascending results) :
    sustained thresholds target results
        = (if results.getLast?.map VotingResult.epoch = some target then
            thresholds.map fun threshold => .clamp (threshold.longestStreak results target.toNat)
          else noCounts thresholds)
      ∧ (results.length < 0x10000000000000000 →
          results.getLast?.map VotingResult.epoch = some target →
          (sustained thresholds target results).map EpochSpan.toNat
            = thresholds.map (·.longestStreak results target.toNat))
      ∧ (sustained thresholds target results).length = thresholds.length
      ∧ (∀ threshold : Threshold,
          IsGreatest {length | threshold.Streak results target.toNat length}
              (threshold.longestStreak results target.toNat)
            ∧ ∀ epoch ≤ target,
                (∀ result ∈ results, result.epoch = epoch →
                  threshold.isMetBy result.stake = false) →
                threshold.longestStreak results target.toNat ≤ target.toNat - epoch.toNat)
      ∧ ((∃ result ∈ results, target < result.epoch) →
          sustained thresholds target results = noCounts thresholds) := by
  have counted := sustained_eq thresholds target ascending
  refine ⟨counted, toNat_sustained thresholds ascending, ?_, fun threshold => ?_, fun later => ?_⟩
  · rw [counted]
    split
    · exact List.length_map ..
    · exact length_noCounts thresholds
  · have greatest := isGreatest_longestStreak threshold results target.toNat
    refine ⟨greatest, fun epoch hle failing => Streak.le_sub greatest.1 hle fun met => ?_⟩
    obtain ⟨result, hmem, here, passes⟩ := met
    rw [failing result hmem (Epoch.ext here)] at passes
    cases passes
  · obtain ⟨result, hmem, past⟩ := later
    refine sustained_of_ends_elsewhere ascending fun last ends here => ?_
    have hle := ascending.le_getLast ends hmem
    rw [here] at hle
    exact Nat.not_lt.mpr hle past

/-- Votes for epochs 10 and 11, none for 12, and then for 13 to 16, with fewer
in 14. -/
def gappedVotes : List VotingResult :=
  [(10, 9000), (11, 9000), (13, 9000), (14, 6000), (15, 9000), (16, 8500)].map
    fun (epoch, stake) => ⟨.clamp epoch, ⟨.filled 1⟩, stake⟩

/-- In epoch 16, half of the stake has voted since the gap, and four fifths
since the epoch with fewer votes. In epoch 15 nobody has, for these results. -/
theorem gap_and_failure_cut_streaks :
    Ascending gappedVotes
      ∧ sustained [⟨5000, .clamp 2⟩, ⟨8000, .clamp 1⟩] (.clamp 16) gappedVotes
          = [.clamp 4, .clamp 2]
      ∧ sustained [⟨5000, .clamp 2⟩, ⟨8000, .clamp 1⟩] (.clamp 15) gappedVotes
          = [.none, .none] := by
  have ascending : Ascending gappedVotes := by decide
  obtain ⟨counted, -⟩ := sustained_counts_longest_streaks
    [⟨5000, .clamp 2⟩, ⟨8000, .clamp 1⟩] (.clamp 16) ascending
  obtain ⟨-, -, -, -, stale⟩ := sustained_counts_longest_streaks
    [⟨5000, .clamp 2⟩, ⟨8000, .clamp 1⟩] (.clamp 15) ascending
  refine ⟨ascending, ?_, stale ⟨⟨.clamp 16, ⟨.filled 1⟩, 8500⟩, ?_, by decide⟩⟩
  · rw [counted]
    decide +kernel
  · exact List.mem_of_getLast? rfl

end Threshold

end LedgerCore
