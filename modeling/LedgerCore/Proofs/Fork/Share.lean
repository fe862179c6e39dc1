/-
How far shares can be trusted. A share is the power behind a candidate, scaled
to basis points and divided by the whole. Where the scaled power would not fit
an amount, the power is divided by a ten-thousandth of the whole instead. That
divisor is itself rounded down, so the quotient may be too high, and never too
low.

# One basis point

Let `unit` be the divisor and `part` the power. The exact share divides
`part * fullStake`, and the two are tied by

  part * fullStake + part / unit * (whole % fullStake)
    = part / unit * whole + fullStake * (part % unit)

(`scaled_add_eq`): rounding the whole down left out `whole % fullStake` once for
each basis point of the quotient, and the division left `part % unit` of the
power over. Both corrections are less than the whole. So the quotient is the
exact share if what is left over makes up for what was left out, and one more
than the exact share if it does not (`RoundedUp`, `stakeShare_eq`).
-/
import LedgerCore.Proofs.Fork.Tally
import Mathlib.Tactic.Linarith
import Mathlib.Tactic.Ring

namespace LedgerCore

namespace VotingResult

variable {part whole : Nat} {validators : List ValidatorVote}

-- ================================================================ arithmetic

/-- What the two ways to take a share have to do with each other. -/
theorem scaled_add_eq (part whole : Nat) :
    part * fullStake + part / (whole / fullStake) * (whole % fullStake)
      = part / (whole / fullStake) * whole + fullStake * (part % (whole / fullStake)) := by
  have hpart := Nat.div_add_mod part (whole / fullStake)
  have hwhole := Nat.div_add_mod whole fullStake
  generalize whole / fullStake = unit at *
  generalize part / unit = quotient at *
  calc part * fullStake + quotient * (whole % fullStake)
      = (unit * quotient + part % unit) * fullStake + quotient * (whole % fullStake) := by
        rw [hpart]
    _ = quotient * (fullStake * unit + whole % fullStake) + fullStake * (part % unit) := by
        ring
    _ = quotient * whole + fullStake * (part % unit) := by rw [hwhole]

/-- A quotient that is tied to an exact one by two corrections, each of less
than a whole: it is the exact one if the first makes up for the second, and one
more if it does not. -/
theorem quotient_eq_of_add_eq {scaled quotient rest lost : Nat}
    (tied : scaled + lost = quotient * whole + rest) (hrest : rest < whole) (hlost : lost < whole) :
    quotient = scaled / whole + if rest < lost then 1 else 0 := by
  by_cases short : rest < lost
  · obtain ⟨share, rfl⟩ : ∃ share, quotient = share + 1 := by
      refine Nat.exists_eq_succ_of_ne_zero fun hzero => ?_
      rw [hzero, Nat.zero_mul] at tied
      omega
    rw [Nat.succ_mul] at tied
    have hexact : scaled / whole = share :=
      Nat.div_eq_of_lt_le (by omega) (by rw [Nat.succ_mul]; omega)
    rw [hexact, if_pos short]
  · have hexact : scaled / whole = quotient :=
      Nat.div_eq_of_lt_le (by omega) (by rw [Nat.succ_mul]; omega)
    rw [hexact, if_neg short, Nat.add_zero]

/-- A part of the whole is at most all of its basis points, as long as what
rounding leaves out of the whole is less than one of them. -/
theorem div_unit_le (large : fullStake * fullStake ≤ whole) (hle : part ≤ whole) :
    part / (whole / fullStake) ≤ fullStake := by
  have hunit : fullStake ≤ whole / fullStake :=
    (Nat.le_div_iff_mul_le (by decide)).mpr large
  have hrest : whole % fullStake < fullStake := Nat.mod_lt _ (by decide)
  have hwhole := Nat.div_add_mod whole fullStake
  refine Nat.le_of_lt_succ (Nat.div_lt_of_lt_mul ?_)
  calc part ≤ whole := hle
    _ = fullStake * (whole / fullStake) + whole % fullStake := hwhole.symm
    _ < fullStake * (whole / fullStake) + whole / fullStake :=
        Nat.add_lt_add_left (Nat.lt_of_lt_of_le hrest hunit) _
    _ = whole / fullStake * (fullStake + 1) := by ring

/-- A share comes out one basis point too high: its power cannot be scaled, and
what is left over of it does not make up for what was left out of the whole. -/
def RoundedUp (part whole : Nat) : Prop :=
  0x100000000000000000000000000000000 ≤ part * fullStake
    ∧ fullStake * (part % (whole / fullStake)) < part / (whole / fullStake) * (whole % fullStake)

instance (part whole : Nat) : Decidable (RoundedUp part whole) :=
  inferInstanceAs (Decidable (_ ∧ _))

/-- Dividing by the rounded divisor gives the exact share, or one more. -/
theorem div_unit_eq (large : fullStake * fullStake ≤ whole) (hle : part ≤ whole)
    (scales : 0x100000000000000000000000000000000 ≤ part * fullStake) :
    part / (whole / fullStake)
      = part * fullStake / whole + if RoundedUp part whole then 1 else 0 := by
  have hunit : 0 < whole / fullStake := Nat.div_pos (Nat.le_trans (by decide) large) (by decide)
  have hover : fullStake * (part % (whole / fullStake)) < whole := by
    calc fullStake * (part % (whole / fullStake))
        < fullStake * (whole / fullStake) :=
          Nat.mul_lt_mul_of_pos_left (Nat.mod_lt _ hunit) (by decide)
      _ ≤ whole := Nat.mul_div_le whole fullStake
  have hout : part / (whole / fullStake) * (whole % fullStake) < whole := by
    calc part / (whole / fullStake) * (whole % fullStake)
        ≤ fullStake * (whole % fullStake) := Nat.mul_le_mul_right _ (div_unit_le large hle)
      _ < fullStake * fullStake :=
          Nat.mul_lt_mul_of_pos_left (Nat.mod_lt _ (by decide)) (by decide)
      _ ≤ whole := large
  rw [quotient_eq_of_add_eq (scaled_add_eq part whole) hover hout]
  simp only [RoundedUp, scales, true_and]

/-- The share of a part in the whole is the exact one, or one more. -/
theorem stakeShare_eq (hle : part ≤ whole) :
    stakeShare part whole
      = part * fullStake / whole + if RoundedUp part whole then 1 else 0 := by
  unfold stakeShare
  by_cases scales : part * fullStake < 0x100000000000000000000000000000000
  · rw [if_pos scales, if_neg fun hup => Nat.not_le.mpr scales hup.1, Nat.add_zero]
    exact Nat.min_eq_right (Nat.div_le_of_le_mul (Nat.mul_le_mul_right fullStake hle))
  · have scales := Nat.le_of_not_lt scales
    -- a part that cannot be scaled is of a whole that is large enough
    have large : fullStake * fullStake ≤ whole := by
      unfold fullStake at *
      omega
    rw [if_neg (Nat.not_lt.mpr scales), ← div_unit_eq large hle scales]
    exact Nat.min_eq_right (div_unit_le large hle)

-- =================================================================== tallies

variable {closing : Epoch} {id : CandidateId} {result : VotingResult}

theorem stakeShare_le (part whole : Nat) : stakeShare part whole ≤ fullStake :=
  Nat.min_le_left _ _

/-- The share a tally takes for a candidate. -/
def shareOf (id : CandidateId) (validators : List ValidatorVote) : Nat :=
  stakeShare (totalPower (supporters validators id)).toNat (totalPower validators).toNat

/-- A result can hold any share. -/
theorem toNat_ofNat_shareOf (id : CandidateId) (validators : List ValidatorVote) :
    (UInt16.ofNat (shareOf id validators)).toNat = shareOf id validators := by
  refine UInt16.toNat_ofNat_of_lt' (Nat.lt_of_le_of_lt (stakeShare_le _ _) ?_)
  decide

/-- A result has the share of its candidate, which is one that is recorded. -/
theorem resultOf_eq_some_iff :
    resultOf closing validators id = some result ↔
      result.epoch = closing.next ∧ result.candidate = id
        ∧ result.stake.toNat = shareOf id validators ∧ leastRecorded ≤ shareOf id validators := by
  obtain ⟨epoch, candidate, stake⟩ := result
  show (if leastRecorded ≤ shareOf id validators then
    some (⟨closing.next, id, UInt16.ofNat (shareOf id validators)⟩ : VotingResult) else none) = _ ↔ _
  by_cases hleast : leastRecorded ≤ shareOf id validators
  · rw [if_pos hleast]
    simp only [Option.some.injEq, VotingResult.mk.injEq, hleast, and_true]
    rw [eq_comm (a := closing.next), eq_comm (a := id), ← UInt16.toNat_inj,
      toNat_ofNat_shareOf, eq_comm (a := shareOf id validators)]
  · rw [if_neg hleast]
    exact iff_of_false nofun fun h => hleast h.2.2.2

/-- The results of a tally are those of the candidates that were voted for and
have a share that is recorded. -/
theorem mem_tally_iff :
    result ∈ tally closing validators ↔
      result.epoch = closing.next ∧ result.candidate ∈ candidates validators
        ∧ result.stake.toNat = shareOf result.candidate validators
        ∧ leastRecorded ≤ shareOf result.candidate validators := by
  rw [tally_eq]
  by_cases hzero : (totalPower validators).isZero = true
  · rw [if_pos hzero]
    refine iff_of_false List.not_mem_nil fun h => ?_
    -- of nothing there is no share
    have hnone : shareOf result.candidate validators = 0 := by
      rw [shareOf, Amount.isZero_iff.mp hzero, Amount.toNat_zero, stakeShare]
      simp only [Nat.div_zero, Nat.zero_div, ite_self, Nat.min_zero]
    rw [hnone] at h
    exact absurd h.2.2.2 (by decide)
  · rw [if_neg hzero, List.mem_filterMap]
    simp only [resultOf_eq_some_iff]
    constructor
    · rintro ⟨id, hid, hepoch, rfl, hstake, hleast⟩
      exact ⟨hepoch, hid, hstake, hleast⟩
    · rintro ⟨hepoch, hid, hstake, hleast⟩
      exact ⟨result.candidate, hid, hepoch, rfl, hstake, hleast⟩

/-- What a tally adds to the exact share of a candidate. -/
def surplus (id : CandidateId) (validators : List ValidatorVote) : Nat :=
  if RoundedUp (power (supporters validators id)) (power validators) then 1 else 0

/-- A share that is counted is the support, and what the rounding adds to
it. -/
theorem shareOf_eq (fits : power validators < 0x100000000000000000000000000000000)
    (id : CandidateId) :
    shareOf id validators = support id validators + surplus id validators := by
  have hle := power_supporters_le validators id
  rw [shareOf, toNat_totalPower fits, toNat_totalPower (Nat.lt_of_le_of_lt hle fits)]
  exact stakeShare_eq hle

/-- A candidate that no one voted for has no share. -/
theorem shareOf_of_not_mem (h : id ∉ candidates validators) : shareOf id validators = 0 := by
  rw [shareOf, supporters_of_not_mem h]
  show stakeShare 0 _ = 0
  rw [stakeShare, Nat.zero_mul, if_pos (by decide), Nat.zero_div, Nat.min_zero]

/-- The shares of a tally are exact, unless they are rounded up; then they are
one basis point too high. A candidate has a result exactly if the share that is
reported is recorded. -/
theorem shares_exact_or_next (closing : Epoch)
    (fits : power validators < 0x100000000000000000000000000000000) :
    (∀ result ∈ tally closing validators,
        result.stake.toNat
          = support result.candidate validators + surplus result.candidate validators)
      ∧ ∀ id, (∃ result ∈ tally closing validators, result.candidate = id)
          ↔ leastRecorded ≤ support id validators + surplus id validators := by
  refine ⟨fun result hresult => ?_, fun id => ?_⟩
  · rw [← shareOf_eq fits]
    exact (mem_tally_iff.mp hresult).2.2.1
  · rw [← shareOf_eq fits]
    constructor
    · rintro ⟨result, hresult, rfl⟩
      exact (mem_tally_iff.mp hresult).2.2.2
    · intro hleast
      have hvoted : id ∈ candidates validators := by
        by_contra habsent
        rw [shareOf_of_not_mem habsent] at hleast
        exact absurd hleast (by decide)
      exact ⟨⟨closing.next, id, UInt16.ofNat (shareOf id validators)⟩,
        mem_tally_iff.mpr ⟨rfl, hvoted, toNat_ofNat_shareOf id validators, hleast⟩, rfl⟩

/-- A ten-thousandth of the largest amount, rounded down. -/
def leastBasisPoint : Nat := 34028236692093846346337460743176821

/-- Validators that have the largest amount between them. The first two fall
short of a half and of a tenth by less than a basis point, the third is just
above a fifth, and the last one does not vote. -/
def closeShares : List ValidatorVote :=
  [⟨.clamp (5000 * leastBasisPoint), some ⟨.filled 1⟩⟩,
    ⟨.clamp (1000 * leastBasisPoint), some ⟨.filled 2⟩⟩,
    ⟨.clamp (2000 * leastBasisPoint + 1000), some ⟨.filled 3⟩⟩,
    ⟨.clamp (2000 * leastBasisPoint + 455), none⟩]

/-- None of these powers can be scaled. The share above a fifth is exact, and
the one short of a tenth is rounded up and thereby recorded. -/
theorem close_shares_reported :
    power closeShares < 0x100000000000000000000000000000000
      ∧ (∀ result ∈ tally .genesis closeShares,
          result.candidate = ⟨.filled 3⟩ → result.stake.toNat = 2000)
      ∧ support ⟨.filled 2⟩ closeShares = 999
      ∧ ∃ result ∈ tally .genesis closeShares, result.candidate = ⟨.filled 2⟩ := by
  have fits : power closeShares < 0x100000000000000000000000000000000 := by decide
  obtain ⟨reported, recorded⟩ := shares_exact_or_next .genesis fits
  refine ⟨fits, fun result hresult hthird => ?_, by decide +kernel,
    (recorded ⟨.filled 2⟩).mpr (by decide +kernel)⟩
  rw [reported result hresult, hthird]
  decide +kernel

/-- A share short of a half is reported as a half, and one short of a tenth is
recorded. -/
theorem short_shares_overstated :
    power closeShares < 0x100000000000000000000000000000000
      ∧ 0 < power closeShares
      ∧ tally .genesis closeShares
          = [⟨.clamp 1, ⟨.filled 1⟩, 5000⟩, ⟨.clamp 1, ⟨.filled 2⟩, 1000⟩,
            ⟨.clamp 1, ⟨.filled 3⟩, 2000⟩]
      ∧ support ⟨.filled 1⟩ closeShares = 4999
      ∧ support ⟨.filled 2⟩ closeShares = 999
      ∧ ¬ ∀ result ∈ tally .genesis closeShares,
          result.stake.toNat = support result.candidate closeShares := by
  decide +kernel

end VotingResult

end LedgerCore
