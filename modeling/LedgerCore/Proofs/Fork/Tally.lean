/-
What a tally comes to. The validators are counted one after another, in one
pass that keeps the power behind every candidate met so far. `Poll.Counts`
says what has been counted at any time: the power of the validators up to
there, and behind each candidate that of its supporters among them, sums that
stop at the largest amount being the same wherever they are begun
(`totalPower_append`). So a tally is a list of candidates with what can be said
of each on its own (`tally_eq`).

# Exact shares

`power` is the exact power of some validators, and `support` the exact share
that stands behind a candidate. The amounts a tally computes with are bounded:
powers stop at the largest amount, and a share is scaled the other way round
where the product would not fit. As long as the powers are small enough for
neither to happen, a tally holds for each candidate its exact support, unless
that is too small to be recorded (`find?_tally`).
-/
import LedgerCore.Fork.Vote
import Mathlib.Data.List.Nodup

namespace LedgerCore

namespace VotingResult

variable {validators : List ValidatorVote} {id : CandidateId}

-- =================================================================== power

/-- The power of some validators, all of it. -/
def power (validators : List ValidatorVote) : Nat :=
  validators.foldr (fun validator power => validator.power.toNat + power) 0

/-- The power of some validators, as far as an amount can hold it. -/
def totalPower (validators : List ValidatorVote) : Amount := Amount.clamp (power validators)

/-- The validators that voted for a candidate. -/
def supporters (validators : List ValidatorVote) (candidate : CandidateId) :
    List ValidatorVote :=
  validators.filter fun validator => validator.vote = some candidate

/-- Two groups have the power of both. -/
theorem power_append (validators others : List ValidatorVote) :
    power (validators ++ others) = power validators + power others := by
  induction validators with
  | nil => exact (Nat.zero_add _).symm
  | cons validator rest ih =>
      show validator.power.toNat + power (rest ++ others)
        = validator.power.toNat + power rest + power others
      rw [ih, Nat.add_assoc]

theorem totalPower_singleton (validator : ValidatorVote) :
    totalPower [validator] = validator.power :=
  Amount.ext (Nat.min_eq_left (Nat.le_of_lt_succ validator.power.lt_limit))

/-- The power of two groups is the sum of theirs, as far as an amount can hold
it, even if they were counted as far as an amount can hold them. -/
theorem totalPower_append (validators others : List ValidatorVote) :
    totalPower (validators ++ others) = (totalPower validators).addUpTo (totalPower others) := by
  refine Amount.ext ?_
  show min (power (validators ++ others)) _ = min (min (power validators) _ + min (power others) _) _
  rw [power_append]
  omega

/-- Supporters have no more power than all validators. -/
theorem power_supporters_le (validators : List ValidatorVote) (id : CandidateId) :
    power (supporters validators id) ≤ power validators := by
  induction validators with
  | nil => exact Nat.le_refl _
  | cons validator rest ih =>
      rw [supporters, List.filter_cons]
      split
      · exact Nat.add_le_add_left ih _
      · exact Nat.le_trans ih (Nat.le_add_left ..)

/-- A power that an amount can hold is counted exactly. -/
theorem toNat_totalPower (fits : power validators < 0x100000000000000000000000000000000) :
    (totalPower validators).toNat = power validators :=
  Nat.min_eq_left (Nat.le_of_lt_succ fits)

-- ================================================================= support

/-- The share of the power that voted for a candidate, in basis points,
rounded down. Where there is no power there is no share. -/
def support (id : CandidateId) (validators : List ValidatorVote) : Nat :=
  power (supporters validators id) * fullStake / power validators

/-- A share is at most the whole. -/
theorem support_le (id : CandidateId) (validators : List ValidatorVote) :
    support id validators ≤ fullStake := by
  refine Nat.div_le_of_le_mul ?_
  exact Nat.mul_le_mul_right _ (power_supporters_le validators id)

/-- A power that can be scaled makes a share that is exact. -/
theorem stakeShare_eq_support (fits : power validators * fullStake
      < 0x100000000000000000000000000000000) :
    stakeShare (totalPower (supporters validators id)).toNat (totalPower validators).toNat
      = support id validators := by
  have hle := power_supporters_le validators id
  have scaled := Nat.lt_of_le_of_lt (Nat.mul_le_mul_right fullStake hle) fits
  have htotal := Nat.lt_of_le_of_lt (Nat.le_mul_of_pos_right _ (by decide)) fits
  rw [toNat_totalPower htotal, toNat_totalPower (Nat.lt_of_le_of_lt hle htotal), stakeShare,
    if_pos scaled]
  exact Nat.min_eq_right (support_le id validators)

-- ================================================================ counting

/-- One more vote for a candidate is one more supporter. -/
theorem supporters_snoc {validator : ValidatorVote} (h : validator.vote = some id) :
    supporters (validators ++ [validator]) id = supporters validators id ++ [validator] := by
  rw [supporters, List.filter_append, List.filter_singleton, decide_eq_true h]
  rfl

/-- One more vote for another, or for none, is not. -/
theorem supporters_snoc_of_ne {validator : ValidatorVote} (h : validator.vote ≠ some id) :
    supporters (validators ++ [validator]) id = supporters validators id := by
  rw [supporters, List.filter_append, List.filter_singleton, decide_eq_false h]
  exact List.append_nil _

theorem supporters_ne_nil_iff :
    supporters validators id ≠ [] ↔ ∃ validator ∈ validators, validator.vote = some id := by
  simp [supporters]

end VotingResult

namespace Poll

open VotingResult

/-- What has been counted once some validators are. A candidate is met with its
first vote, be there any power behind it or not. -/
structure Counts (poll : Poll) (validators : List ValidatorVote) : Prop where
  total : poll.total = totalPower validators
  behind : ∀ id, poll.behind[id]?
    = if supporters validators id = [] then none else some (totalPower (supporters validators id))

namespace Counts

variable {poll : Poll} {validators : List ValidatorVote}

theorem empty : Poll.empty.Counts [] where
  total := rfl
  behind _ := Std.ExtTreeMap.getElem?_empty

/-- A candidate that has not been met has no power behind it yet. -/
theorem getD (counts : poll.Counts validators) (id : CandidateId) :
    poll.behind.getD id .zero = totalPower (supporters validators id) := by
  rw [Std.ExtTreeMap.getD_eq_getD_getElem?, counts.behind]
  split
  · next nobody =>
      rw [nobody]
      rfl
  · rfl

/-- One more validator is counted. -/
theorem count (counts : poll.Counts validators) (validator : ValidatorVote) :
    (poll.count validator).Counts (validators ++ [validator]) where
  total := by
    rw [totalPower_append, totalPower_singleton, ← counts.total]
    rfl
  behind id := by
    cases voted : validator.vote with
    | none =>
        rw [supporters_snoc_of_ne (voted ▸ nofun), Poll.count, voted]
        exact counts.behind id
    | some other =>
        rw [Poll.count, voted]
        by_cases own : other = id
        -- the validator's own candidate, whether it was met before or not
        · subst own
          rw [supporters_snoc voted, if_neg (List.concat_ne_nil _ _), totalPower_append,
            totalPower_singleton, ← counts.getD]
          exact Std.ExtTreeMap.getElem?_insert_self
        · have apart : compare other id ≠ .eq := mt Std.LawfulEqOrd.eq_of_compare own
          rw [supporters_snoc_of_ne (voted ▸ fun same => own (Option.some.inj same))]
          dsimp only
          rw [Std.ExtTreeMap.getElem?_insert, if_neg apart]
          exact counts.behind id

end Counts

/-- The whole pass counts all validators. -/
theorem counts_of (validators : List ValidatorVote) : (of validators).Counts validators := by
  suffices general : ∀ (rest counted : List ValidatorVote) (poll : Poll), poll.Counts counted →
      (rest.foldl count poll).Counts (counted ++ rest) from general validators [] .empty .empty
  intro rest
  induction rest with
  | nil =>
      intro counted poll counts
      rw [List.append_nil]
      exact counts
  | cons validator rest ih =>
      intro counted poll counts
      have further := ih _ _ (counts.count validator)
      rwa [List.append_assoc] at further

end Poll

namespace VotingResult

variable {validators : List ValidatorVote} {id : CandidateId}

-- ============================================================== candidates

/-- The candidates that got any vote, in ascending order. -/
def candidates (validators : List ValidatorVote) : List CandidateId := (Poll.of validators).behind.keys

/-- The candidates of a tally are those that anyone voted for. -/
theorem mem_candidates_iff :
    id ∈ candidates validators ↔ ∃ validator ∈ validators, validator.vote = some id := by
  rw [candidates, Std.ExtTreeMap.mem_keys, Std.ExtTreeMap.mem_iff_isSome_getElem?,
    (Poll.counts_of validators).behind, ← supporters_ne_nil_iff]
  split
  · next nobody => simp [nobody]
  · next somebody => simp [somebody]

theorem nodup_candidates (validators : List ValidatorVote) : (candidates validators).Nodup :=
  Std.ExtTreeMap.nodup_keys

theorem supporters_of_not_mem (h : id ∉ candidates validators) : supporters validators id = [] := by
  by_contra somebody
  exact h (mem_candidates_iff.mpr (supporters_ne_nil_iff.mp somebody))

/-- Nothing stands behind a candidate that no one voted for. -/
theorem support_of_not_mem (h : id ∉ candidates validators) : support id validators = 0 := by
  have hpower : power (supporters validators id) = 0 := by
    rw [supporters_of_not_mem h]
    rfl
  rw [support, hpower, Nat.zero_mul, Nat.zero_div]

-- ================================================================= results

/-- The result of one candidate, if its share is recorded. -/
def resultOf (closing : Epoch) (validators : List ValidatorVote) (id : CandidateId) :
    Option VotingResult :=
  let share := stakeShare (totalPower (supporters validators id)).toNat
    (totalPower validators).toNat
  if leastRecorded ≤ share then some ⟨closing.next, id, UInt16.ofNat share⟩ else none

/-- The candidates of a poll are listed with the power of their supporters. -/
theorem toList_poll (validators : List ValidatorVote) :
    (Poll.of validators).behind.toList
      = (candidates validators).map fun id => (id, totalPower (supporters validators id)) := by
  rw [candidates, ← Std.ExtTreeMap.map_fst_toList_eq_keys, List.map_map]
  refine (List.map_id _).symm.trans (List.map_congr_left fun entry hentry => ?_)
  obtain ⟨id, power⟩ := entry
  have counted := Std.ExtTreeMap.mem_toList_iff_getElem?_eq_some.mp hentry
  rw [(Poll.counts_of validators).behind] at counted
  split at counted
  · cases counted
  · cases counted
    rfl

/-- What the one pass over the validators comes to: each candidate that got a
vote has the result that its supporters make on their own. -/
theorem tally_eq (closing : Epoch) (validators : List ValidatorVote) :
    tally closing validators
      = if (totalPower validators).isZero then []
        else (candidates validators).filterMap (resultOf closing validators) := by
  rw [tally, toList_poll, (Poll.counts_of validators).total]
  dsimp only
  rw [List.filterMap_map]
  rfl

/-- The result of a candidate bears its id, and the epoch that follows. -/
theorem of_resultOf {closing : Epoch} {result : VotingResult}
    (h : resultOf closing validators id = some result) :
    result.epoch = closing.next ∧ result.candidate = id := by
  dsimp only [resultOf] at h
  split at h
  · cases h
    exact ⟨rfl, rfl⟩
  · cases h

/-- The results of a tally are for the epoch that follows. -/
theorem epoch_of_mem_tally {closing : Epoch} {result : VotingResult}
    (h : result ∈ tally closing validators) : result.epoch = closing.next := by
  rw [tally_eq] at h
  split at h
  · cases h
  · obtain ⟨id, -, hid⟩ := List.mem_filterMap.mp h
    exact (of_resultOf hid).1

/-- A tally has at most one result for each candidate. -/
theorem nodup_tally (closing : Epoch) (validators : List ValidatorVote) :
    ((tally closing validators).map candidate).Nodup := by
  rw [tally_eq]
  split
  · exact List.nodup_nil
  · have distinct := nodup_candidates validators
    generalize candidates validators = ids at distinct ⊢
    rw [List.Nodup, List.pairwise_map]
    refine List.pairwise_filterMap.mpr (distinct.imp ?_)
    intro a b hne result hresult other hother heq
    rw [(of_resultOf hresult).2, (of_resultOf hother).2] at heq
    exact hne heq

/-- Among results that were each found for its own candidate, that of a
candidate is the one found for it. -/
theorem find?_filterMap {find : CandidateId → Option VotingResult}
    (owned : ∀ {id result}, find id = some result → result.candidate = id)
    (ids : List CandidateId) (id : CandidateId) :
    ((ids.filterMap find).find? fun result => result.candidate == id)
      = if id ∈ ids then find id else none := by
  induction ids with
  | nil => rfl
  | cons first rest ih =>
      cases hfirst : find first with
      | none =>
          rw [List.filterMap_cons_none hfirst, ih]
          by_cases heq : id = first
          · subst heq
            rw [hfirst, ite_self, ite_self]
          · simp only [List.mem_cons, heq, false_or]
      | some result =>
          rw [List.filterMap_cons_some hfirst, List.find?_cons]
          by_cases heq : id = first
          · subst heq
            rw [owned hfirst, beq_self_eq_true, if_pos List.mem_cons_self, hfirst]
          · rw [owned hfirst, beq_eq_false_iff_ne.mpr (Ne.symm heq)]
            simp only [List.mem_cons, heq, false_or]
            exact ih

/-- What is recorded of a share: nothing below ten percent. -/
def recorded? (share : Nat) : Option UInt16 :=
  if leastRecorded ≤ share then some (UInt16.ofNat share) else none

@[simp] theorem recorded?_zero : recorded? 0 = none := rfl

/-- A tally holds the support of each candidate as far as it is recorded. -/
theorem find?_tally (closing : Epoch) (fits : power validators * fullStake
      < 0x100000000000000000000000000000000) (id : CandidateId) :
    ((tally closing validators).find? fun result => result.candidate == id).map stake
      = recorded? (support id validators) := by
  have htotal := Nat.lt_of_le_of_lt (Nat.le_mul_of_pos_right _ (by decide)) fits
  rw [tally_eq]
  split
  · next hzero =>
      have hpower : power validators = 0 := by
        rw [← toNat_totalPower htotal, Amount.isZero_iff.mp hzero]
        rfl
      rw [support, hpower, Nat.div_zero]
      rfl
  · rw [find?_filterMap (fun h => (of_resultOf h).2)]
    split
    · rw [resultOf, stakeShare_eq_support fits, recorded?]
      split <;> rfl
    · next habsent =>
        rw [support_of_not_mem habsent]
        rfl

end VotingResult

end LedgerCore
