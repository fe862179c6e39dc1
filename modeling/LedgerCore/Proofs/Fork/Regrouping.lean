/-
A tally depends on what the validators stand for, not on how they are listed.
It reads three things off them: their whole power, which candidates were voted
for, and the power behind each of these. Two lists that agree on all three
(`SameStake`) have the same tally. Listing validators in another order keeps the
three, and so does taking validators of one vote as one. The powers are kept
because sums that stop at the largest amount do so wherever they are begun
(`totalPower_append`), the fact that counting one by one rests on as well.

The second half adds the shares of a tally up. Each of them may come out too
high, yet together they are at most all of the stake. Exact shares and quotients
by the rounded divisor are bounded alike, in one unit (`exists_unit`), and no
validator stands behind two candidates (`sum_supporters_le`).
-/
import LedgerCore.Proofs.Fork.Share
import Mathlib.Algebra.BigOperators.Ring.List
import Mathlib.Algebra.Order.BigOperators.Group.List

namespace LedgerCore

namespace VotingResult

variable {validators others more group rest : List ValidatorVote} {id : CandidateId}

-- ==================================================================== powers

/-- The order of the validators does not matter for their power. -/
theorem power_perm (h : validators.Perm others) : power validators = power others := by
  induction h with
  | nil => rfl
  | cons validator _ ih => exact congrArg (validator.power.toNat + ·) ih
  | swap first second rest => exact Nat.add_left_comm ..
  | trans _ _ ih ih' => exact ih.trans ih'

theorem totalPower_perm (h : validators.Perm others) :
    totalPower validators = totalPower others :=
  congrArg Amount.clamp (power_perm h)

-- ================================================================ regrouping

/-- The ways to rearrange validators: in any order, and with validators that
agree taken as one, which has all of their power as far as an amount can hold
it. -/
inductive Regroups : List ValidatorVote → List ValidatorVote → Prop
  | reorder {validators others : List ValidatorVote} (perm : validators.Perm others) :
      Regroups validators others
  | merge {vote : Option CandidateId} {group rest : List ValidatorVote} (nonempty : group ≠ [])
      (agreed : ∀ validator ∈ group, validator.vote = vote) :
      Regroups (group ++ rest) (⟨totalPower group, vote⟩ :: rest)
  | trans {validators others more : List ValidatorVote} (first : Regroups validators others)
      (second : Regroups others more) : Regroups validators more

/-- What a tally reads off some validators is the same for others. -/
structure SameStake (validators others : List ValidatorVote) : Prop where
  total : totalPower validators = totalPower others
  voted : ∀ id, id ∈ candidates validators ↔ id ∈ candidates others
  behind : ∀ id, totalPower (supporters validators id) = totalPower (supporters others id)

namespace SameStake

theorem trans (h : SameStake validators others) (h' : SameStake others more) :
    SameStake validators more where
  total := h.total.trans h'.total
  voted id := (h.voted id).trans (h'.voted id)
  behind id := (h.behind id).trans (h'.behind id)

/-- Validators in another order have the same stake. -/
theorem of_perm (h : validators.Perm others) : SameStake validators others where
  total := totalPower_perm h
  voted id := by
    rw [mem_candidates_iff, mem_candidates_iff]
    exact exists_congr fun _ => and_congr_left' h.mem_iff
  behind id := totalPower_perm (h.filter _)

/-- Validators that agree, taken as one. -/
theorem of_merge {vote : Option CandidateId} (nonempty : group ≠ [])
    (agreed : ∀ validator ∈ group, validator.vote = vote) :
    SameStake (group ++ rest) (⟨totalPower group, vote⟩ :: rest) where
  total := by
    rw [← List.singleton_append, totalPower_append, totalPower_append, totalPower_singleton]
  voted id := by
    obtain ⟨first, hfirst⟩ := List.exists_mem_of_ne_nil group nonempty
    rw [mem_candidates_iff, mem_candidates_iff, List.exists_mem_cons_iff]
    simp only [List.mem_append, or_and_right, exists_or]
    refine or_congr_left ⟨?_, fun h => ⟨first, hfirst, (agreed first hfirst).trans h⟩⟩
    rintro ⟨validator, hvalidator, hvote⟩
    exact (agreed validator hvalidator).symm.trans hvote
  behind id := by
    rw [supporters, supporters, List.filter_append, List.filter_cons]
    by_cases hvote : vote = some id
    · rw [List.filter_eq_self.mpr fun validator hvalidator =>
          decide_eq_true ((agreed validator hvalidator).trans hvote),
        if_pos (decide_eq_true hvote), ← List.singleton_append, totalPower_append,
        totalPower_append, totalPower_singleton]
    · have hnone : (group.filter fun validator => validator.vote = some id) = [] := by
        refine List.filter_eq_nil_iff.mpr fun validator hvalidator hother => hvote ?_
        exact (agreed validator hvalidator).symm.trans (of_decide_eq_true hother)
      rw [hnone, if_neg fun hother => hvote (of_decide_eq_true hother), List.nil_append]

/-- Regrouped validators have the same stake. -/
theorem of_regroups (h : Regroups validators others) : SameStake validators others := by
  induction h with
  | reorder perm => exact of_perm perm
  | merge nonempty agreed => exact of_merge nonempty agreed
  | trans _ _ ih ih' => exact ih.trans ih'

/-- Then the same is counted of both. -/
theorem poll_eq (h : SameStake validators others) : Poll.of validators = Poll.of others := by
  have same := Poll.counts_of validators
  have other := Poll.counts_of others
  have table : (Poll.of validators).behind = (Poll.of others).behind := by
    refine Std.ExtTreeMap.ext_getElem? fun id => ?_
    have voted := h.voted id
    rw [mem_candidates_iff, mem_candidates_iff, ← supporters_ne_nil_iff,
      ← supporters_ne_nil_iff, not_iff_not] at voted
    rw [same.behind, other.behind, h.behind]
    exact if_congr voted rfl rfl
  have total := same.total.trans (h.total.trans other.total.symm)
  exact congrArg₂ Poll.mk total table

theorem tally_congr (h : SameStake validators others) (closing : Epoch) :
    tally closing validators = tally closing others := by
  rw [tally, tally, h.poll_eq]

end SameStake

-- ==================================================================== order

theorem candidates_ascending (validators : List ValidatorVote) :
    (candidates validators).Pairwise fun a b => compare a b = .lt :=
  Std.ExtTreeMap.ordered_keys

/-- The results of a tally are in ascending order of their candidates. -/
theorem tally_ascending (closing : Epoch) (validators : List ValidatorVote) :
    (tally closing validators).Pairwise fun a b => compare a.candidate b.candidate = .lt := by
  rw [tally_eq]
  split
  · exact .nil
  · refine List.pairwise_filterMap.mpr ((candidates_ascending validators).imp ?_)
    intro a b hlt result hresult other hother
    rw [(of_resultOf hresult).2, (of_resultOf hother).2]
    exact hlt

-- ====================================================================== sums

/-- No validator stands behind two candidates. -/
theorem sum_supporters_le {ids : List CandidateId} (distinct : ids.Nodup)
    (validators : List ValidatorVote) :
    (ids.map fun id => power (supporters validators id)).sum ≤ power validators := by
  induction ids generalizing validators with
  | nil => exact Nat.zero_le _
  | cons id ids ih =>
      obtain ⟨hid, hids⟩ := List.nodup_cons.mp distinct
      -- the other candidates share what is left without the supporters of the first
      let others := validators.filter fun validator => !decide (validator.vote = some id)
      have hsplit : power (supporters validators id) + power others = power validators := by
        rw [← power_append]
        exact power_perm (List.filter_append_perm _ validators)
      have hothers : ∀ other ∈ ids, supporters others other = supporters validators other := by
        intro other hother
        show (validators.filter _).filter _ = _
        rw [List.filter_filter]
        refine List.filter_congr fun validator _ => ?_
        by_cases hvote : validator.vote = some other
        · have hne : other ≠ id := fun heq => hid (heq ▸ hother)
          simp [hvote, hne]
        · simp [hvote]
      have hrest := ih hids others
      rw [List.map_congr_left fun other hother => congrArg power (hothers other hother)] at hrest
      rw [List.map_cons, List.sum_cons, ← hsplit]
      exact Nat.add_le_add_left hrest _

/-- The shares that are recorded are among those of the candidates. -/
theorem sum_results_le (closing : Epoch) (validators : List ValidatorVote)
    (ids : List CandidateId) :
    ((ids.filterMap (resultOf closing validators)).map fun result => result.stake.toNat).sum
      ≤ (ids.map fun id => shareOf id validators).sum := by
  induction ids with
  | nil => exact Nat.le_refl _
  | cons id ids ih =>
      rw [List.map_cons, List.sum_cons]
      cases hresult : resultOf closing validators id with
      | none =>
          rw [List.filterMap_cons_none hresult]
          exact Nat.le_trans ih (Nat.le_add_left ..)
      | some result =>
          rw [List.filterMap_cons_some hresult, List.map_cons, List.sum_cons,
            (resultOf_eq_some_iff.mp hresult).2.2.1]
          exact Nat.add_le_add_left ih _

/-- A share is at most as many ten-thousandths of the whole as the part has. -/
theorem stakeShare_mul_le (part whole : Nat) :
    stakeShare part whole * (whole / fullStake) ≤ part := by
  unfold stakeShare
  split
  · refine Nat.le_of_mul_le_mul_right (c := fullStake) ?_ (by decide)
    calc min fullStake (part * fullStake / whole) * (whole / fullStake) * fullStake
        ≤ part * fullStake / whole * (whole / fullStake) * fullStake :=
          Nat.mul_le_mul_right _ (Nat.mul_le_mul_right _ (Nat.min_le_right ..))
      _ = part * fullStake / whole * (whole / fullStake * fullStake) := Nat.mul_assoc ..
      _ ≤ part * fullStake / whole * whole :=
          Nat.mul_le_mul_left _ (Nat.div_mul_le_self whole fullStake)
      _ ≤ part * fullStake := Nat.div_mul_le_self ..
  · calc min fullStake (part / (whole / fullStake)) * (whole / fullStake)
        ≤ part / (whole / fullStake) * (whole / fullStake) :=
          Nat.mul_le_mul_right _ (Nat.min_le_right ..)
      _ ≤ part := Nat.div_mul_le_self ..

/-- All shares of a tally, exact or not, are bounded in one unit of power, of
which the whole has less than one more than there are basis points. -/
theorem exists_unit (fits : power validators < 0x100000000000000000000000000000000)
    (hpos : 0 < power validators) :
    ∃ unit scale, power validators * scale < (fullStake + 1) * unit
      ∧ ∀ id, shareOf id validators * unit ≤ power (supporters validators id) * scale := by
  by_cases scales : power validators * fullStake < 0x100000000000000000000000000000000
  -- then all shares are exact
  · refine ⟨power validators, fullStake, ?_, fun id => ?_⟩
    · rw [Nat.succ_mul, Nat.mul_comm]
      exact Nat.lt_add_of_pos_right hpos
    · rw [shareOf, stakeShare_eq_support scales]
      exact Nat.div_mul_le_self ..
  · refine ⟨power validators / fullStake, 1, ?_, fun id => ?_⟩
    · have hwhole := Nat.div_add_mod (power validators) fullStake
      have hrest : power validators % fullStake < fullStake := Nat.mod_lt _ (by decide)
      have hunit : fullStake ≤ power validators / fullStake := by
        refine (Nat.le_div_iff_mul_le (by decide)).mpr ?_
        unfold fullStake at *
        omega
      rw [Nat.mul_one, Nat.succ_mul]
      omega
    · rw [shareOf, toNat_totalPower fits, Nat.mul_one,
        toNat_totalPower (Nat.lt_of_le_of_lt (power_supporters_le validators id) fits)]
      exact stakeShare_mul_le ..

/-- Together the shares of some candidates are at most all of the stake. -/
theorem sum_shares_le (fits : power validators < 0x100000000000000000000000000000000)
    (hpos : 0 < power validators) {ids : List CandidateId} (distinct : ids.Nodup) :
    (ids.map fun id => shareOf id validators).sum ≤ fullStake := by
  obtain ⟨unit, scale, hwhole, hshare⟩ := exists_unit fits hpos
  refine Nat.le_of_lt_succ (Nat.lt_of_mul_lt_mul_right (a := unit) ?_)
  calc (ids.map fun id => shareOf id validators).sum * unit
      = (ids.map fun id => shareOf id validators * unit).sum := (List.sum_map_mul_right ..).symm
    _ ≤ (ids.map fun id => power (supporters validators id) * scale).sum :=
        List.sum_le_sum fun id _ => hshare id
    _ = (ids.map fun id => power (supporters validators id)).sum * scale :=
        List.sum_map_mul_right ..
    _ ≤ power validators * scale := Nat.mul_le_mul_right _ (sum_supporters_le distinct validators)
    _ < (fullStake + 1) * unit := hwhole

-- ==================================================================== tallies

/-- A tally is the same however the validators are listed and grouped. Its
results are in ascending order of candidates, for the next epoch, with shares
from the least that is recorded to all of the stake, and name candidates only
that were voted for. As long as the power of the validators fits an amount, the
shares are at most all of the stake together. -/
theorem tally_regrouped (closing : Epoch) (validators : List ValidatorVote) :
    (∀ others, Regroups validators others → tally closing others = tally closing validators)
      ∧ (tally closing validators).Pairwise (fun a b => compare a.candidate b.candidate = .lt)
      ∧ (∀ result ∈ tally closing validators, result.epoch = closing.next
          ∧ leastRecorded ≤ result.stake.toNat ∧ result.stake.toNat ≤ fullStake
          ∧ ∃ validator ∈ validators, validator.vote = some result.candidate)
      ∧ (power validators < 0x100000000000000000000000000000000 →
          ((tally closing validators).map fun result => result.stake.toNat).sum ≤ fullStake) := by
  refine ⟨fun others h => ((SameStake.of_regroups h).tally_congr closing).symm,
    tally_ascending closing validators, fun result hresult => ?_, fun fits => ?_⟩
  · obtain ⟨hepoch, hvoted, hstake, hleast⟩ := mem_tally_iff.mp hresult
    rw [hstake]
    exact ⟨hepoch, hleast, stakeShare_le _ _, mem_candidates_iff.mp hvoted⟩
  · rw [tally_eq]
    split
    · exact Nat.zero_le _
    · next hzero =>
        have hpos : 0 < power validators := by
          refine Nat.pos_of_ne_zero fun hnone => hzero (Amount.isZero_iff.mpr (Amount.ext ?_))
          rw [toNat_totalPower fits, hnone, Amount.toNat_zero]
        exact Nat.le_trans (sum_results_le closing validators _)
          (sum_shares_le fits hpos (nodup_candidates validators))

/-- Two groups of validators with the largest amount between them, of which the
first falls short of a half by less than a basis point. -/
def nearHalves : List ValidatorVote :=
  [⟨.clamp (5000 * leastBasisPoint), some ⟨.filled 1⟩⟩,
    ⟨.clamp (5000 * leastBasisPoint + 1455), some ⟨.filled 2⟩⟩]

/-- The same, with the first group on both sides of the second. -/
def splitHalves : List ValidatorVote :=
  [⟨.clamp (2000 * leastBasisPoint), some ⟨.filled 1⟩⟩,
    ⟨.clamp (5000 * leastBasisPoint + 1455), some ⟨.filled 2⟩⟩,
    ⟨.clamp (3000 * leastBasisPoint), some ⟨.filled 1⟩⟩]

/-- The first share is rounded up, and then they are all of the stake, but not
more. -/
theorem split_halves_regrouped :
    Regroups splitHalves nearHalves
      ∧ tally .genesis nearHalves = tally .genesis splitHalves
      ∧ power splitHalves < 0x100000000000000000000000000000000
      ∧ support ⟨.filled 1⟩ splitHalves = 4999
      ∧ (tally .genesis splitHalves).map VotingResult.stake = [5000, 5000]
      ∧ ((tally .genesis splitHalves).map fun result => result.stake.toNat).sum ≤ fullStake := by
  obtain ⟨same, -, -, bounded⟩ := tally_regrouped .genesis splitHalves
  have fits : power splitHalves < 0x100000000000000000000000000000000 := by decide
  have regroups : Regroups splitHalves nearHalves := by
    let group : List ValidatorVote :=
      [⟨.clamp (2000 * leastBasisPoint), some ⟨.filled 1⟩⟩,
        ⟨.clamp (3000 * leastBasisPoint), some ⟨.filled 1⟩⟩]
    let rest : List ValidatorVote :=
      [⟨.clamp (5000 * leastBasisPoint + 1455), some ⟨.filled 2⟩⟩]
    have reordered : splitHalves.Perm (group ++ rest) := by decide +kernel
    have merged : Regroups (group ++ rest) (⟨totalPower group, some ⟨.filled 1⟩⟩ :: rest) :=
      .merge (by decide) (by decide)
    have heq : ⟨totalPower group, some ⟨.filled 1⟩⟩ :: rest = nearHalves := by decide +kernel
    exact .trans (.reorder reordered) (heq ▸ merged)
  exact ⟨regroups, same nearHalves regroups, fits, by decide +kernel, by decide +kernel,
    bounded fits⟩

end VotingResult

end LedgerCore
