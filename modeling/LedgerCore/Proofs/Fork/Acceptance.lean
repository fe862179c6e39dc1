/-
Which lists of forks are accepted, and how the forks of an accepted one hang
together.

# Acceptance

`Fork.ValidSchedule` says what a list of forks has to be like without regard
to how it is checked: no matter in which order, by which early exits, and
which neighbours are compared. `create_eq_ok_iff` says that what is checked is
that the registry made of the list is sound, so what remains is to tell a
valid list from a sound registry (`validSchedule_iff`).

# The chain

Whoever follows the links from the first fork on `Visits` forks one after the
other until no link leads on. There is one way to go (`Visits.unique`), and it
takes in all forks in the order they are listed (`Sound.visits`).
-/
import LedgerCore.Proofs.Fork.Order

namespace LedgerCore

variable {ρ : Type}

-- ============================================================= valid schedules

/-- A candidate's schedule that can be met: there is an epoch in its window,
and something is asked, each time some of the stake and at most all of it, for
one epoch or more. -/
structure CandidateSchedule.Meaningful (schedule : CandidateSchedule) : Prop where
  window : schedule.minEpoch ≤ schedule.maxEpoch
  asked : schedule.thresholds ≠ []
  thresholds : ∀ threshold ∈ schedule.thresholds,
    1 ≤ threshold.requiredStake.toNat ∧ threshold.requiredStake.toNat ≤ 10000
      ∧ 1 ≤ threshold.epochs.toNat

/-- A list of forks that makes a schedule. The fixed forks are taken in the
order of the list. -/
structure Fork.ValidSchedule (forks : List (Fork ρ)) : Prop where
  distinct : (forks.map name).Nodup
  starts : ∃ genesis, (fixedOf forks).head? = some genesis ∧ genesis.epoch.toNat = 0
  ascending : (fixedOf forks).Pairwise fun a b => a.epoch < b.epoch
  single : (candidatesOf forks).length ≤ 1
  meaningful : ∀ candidate ∈ candidatesOf forks, candidate.schedule.Meaningful
  behind : ∀ candidate ∈ candidatesOf forks, ∀ last, (fixedOf forks).getLast? = some last →
    last.epoch < candidate.schedule.minEpoch

/-- A threshold is valid if it asks for some stake, at most all of it, and
for an epoch at least. -/
theorem Threshold.isValid_iff {threshold : Threshold} :
    threshold.isValid = true ↔ 1 ≤ threshold.requiredStake.toNat
      ∧ threshold.requiredStake.toNat ≤ 10000 ∧ 1 ≤ threshold.epochs.toNat := by
  simp only [isValid, Bool.and_eq_true, decide_eq_true_eq, and_assoc]
  unfold fullStake
  omega

namespace Registry

/-- A candidate makes sense behind fixed forks if its schedule can be met and
its window lies behind the last of them. -/
theorem soundCandidate_iff {fixed : List (FixedFork ρ)} {candidate : CandidateFork ρ}
    (ascending : fixed.Pairwise fun a b => a.epoch < b.epoch) :
    SoundCandidate fixed candidate ↔ candidate.schedule.Meaningful
      ∧ ∀ last, fixed.getLast? = some last → last.epoch < candidate.schedule.minEpoch := by
  constructor
  · intro sound
    refine ⟨⟨sound.window, sound.asked, fun threshold hmem => ?_⟩, fun last hlast => ?_⟩
    · exact Threshold.isValid_iff.mp (sound.valid threshold hmem)
    · exact sound.behind last (List.mem_of_getLast? hlast)
  · rintro ⟨meaningful, behind⟩
    refine ⟨fun fork hfork => ?_, meaningful.window, meaningful.asked, fun threshold hmem => ?_⟩
    · cases fixed with
      | nil => cases hfork
      | cons first later =>
          have last := behind _ (List.getLast?_eq_some_getLast (List.cons_ne_nil first later))
          exact Nat.lt_of_le_of_lt (le_lastEpoch ascending hfork) last
    · exact Threshold.isValid_iff.mpr (meaningful.thresholds threshold hmem)

variable {registry : Registry ρ} {forks : List (Fork ρ)}

/-- The valid lists of forks are those that a sound registry is made of. -/
theorem validSchedule_iff :
    Fork.ValidSchedule forks ↔ ∃ registry : Registry ρ, registry.Sound ∧ registry.MadeOf forks := by
  constructor
  · -- a valid schedule makes a registry of the forks as they are sorted
    intro valid
    obtain ⟨genesis, hgenesis, starts⟩ := valid.starts
    obtain ⟨later, hfixed⟩ := List.head?_eq_some_iff.mp hgenesis
    have single := toList_head?_of_length (Nat.not_lt.mpr valid.single)
    have made : (Registry.mk genesis later (Fork.candidatesOf forks).head?).MadeOf forks :=
      ⟨hfixed, single.symm⟩
    have ascending := valid.ascending
    rw [hfixed] at ascending
    have names := (made.perm.map Fork.name).nodup_iff.mpr valid.distinct
    refine ⟨⟨genesis, later, _⟩, ⟨Epoch.ext starts, ascending, names, ?_⟩, made⟩
    intro candidate hcandidate
    have hmem := List.mem_of_head? hcandidate
    have behind := valid.behind candidate hmem
    rw [hfixed] at behind
    exact (soundCandidate_iff ascending).mpr ⟨valid.meaningful candidate hmem, behind⟩
  · -- a sound registry answers each demand for the forks it was made of
    rintro ⟨registry, sound, made⟩
    have sensible : ∀ candidate ∈ Fork.candidatesOf forks,
        SoundCandidate (Fork.fixedOf forks) candidate := by
      intro candidate hcandidate
      rw [made.candidates, Option.mem_toList] at hcandidate
      rw [made.fixed]
      exact sound.candidate candidate hcandidate
    have ascending : (Fork.fixedOf forks).Pairwise fun a b => a.epoch < b.epoch := by
      rw [made.fixed]
      exact sound.ascending
    refine ⟨?_, ?_, ascending, ?_, fun candidate hcandidate => ?_, fun candidate hcandidate => ?_⟩
    · exact (made.perm.map Fork.name).nodup_iff.mp sound.names
    · refine ⟨registry.genesis, ?_, congrArg Epoch.toNat sound.starts⟩
      rw [made.fixed]
      rfl
    · rw [made.candidates]
      exact Option.length_toList_le
    · exact ((soundCandidate_iff ascending).mp (sensible candidate hcandidate)).1
    · exact ((soundCandidate_iff ascending).mp (sensible candidate hcandidate)).2

-- =================================================================== the chain

/-- The forks that are met by following the links from a fork on to one that
no link leads out of. -/
inductive Visits (registry : Registry ρ) : Fork ρ → List (Fork ρ) → Prop
  | last {fork : Fork ρ} (ends : registry.link? fork.name = none) :
      registry.Visits fork [fork]
  | on {fork other : Fork ρ} {link : Link} {rest : List (Fork ρ)}
      (leads : registry.link? fork.name = some link) (there : registry.target link = some other)
      (visits : registry.Visits other rest) : registry.Visits fork (fork :: rest)

/-- There is one way to follow the links. -/
theorem Visits.unique {fork : Fork ρ} {visited visited' : List (Fork ρ)}
    (visits : registry.Visits fork visited) (visits' : registry.Visits fork visited') :
    visited = visited' := by
  induction visits generalizing visited' with
  | last ends =>
      cases visits' with
      | last => rfl
      | on leads => rw [ends] at leads; cases leads
  | on leads there _ ih =>
      cases visits' with
      | last ends => rw [ends] at leads; cases leads
      | on leads' there' onward =>
          obtain rfl := Option.some.inj (leads.symm.trans leads')
          obtain rfl := Option.some.inj (there.symm.trans there')
          rw [ih onward]

/-- Every link leads to a fork. -/
theorem exists_target_of_link? {name : String} {link : Link}
    (h : registry.link? name = some link) : ∃ fork, registry.target link = some fork := by
  obtain ⟨index, -, h⟩ := Option.bind_eq_some_iff.mp h
  unfold linkAt at h
  split at h
  · next more =>
      cases h
      refine ⟨.fixed registry.fixed[index + 1], ?_⟩
      rw [target, List.getElem?_eq_getElem more]
      rfl
  split at h
  · next chosen =>
      cases h
      obtain ⟨candidate, hcandidate⟩ := Option.isSome_iff_exists.mp chosen
      refine ⟨.candidate candidate, ?_⟩
      rw [target, hcandidate]
      rfl
  · cases h

/-- No link leads out of the last fork. -/
theorem Sound.link?_last (sound : registry.Sound) {passed : List (Fork ρ)} {current : Fork ρ}
    (order : registry.forks = passed ++ [current]) : registry.link? current.name = none := by
  have follows := sound.follows order
  cases hlink : registry.link? current.name with
  | none => rfl
  | some link =>
      obtain ⟨fork, hfork⟩ := exists_target_of_link? hlink
      rw [hlink, Option.bind_some, hfork] at follows
      cases follows

/-- The links from any fork on take in the forks that are listed from there. -/
theorem Sound.visits (sound : registry.Sound) {passed coming : List (Fork ρ)} {current : Fork ρ}
    (order : registry.forks = passed ++ current :: coming) :
    registry.Visits current (current :: coming) := by
  induction coming generalizing passed current with
  | nil => exact .last (sound.link?_last order)
  | cons other rest ih =>
      obtain ⟨link, leads, there⟩ := Option.bind_eq_some_iff.mp (sound.follows order)
      have order' : registry.forks = (passed ++ [current]) ++ other :: rest := by
        rw [order, List.append_assoc, List.singleton_append]
      exact .on leads there (ih order')

/-- The newest fork is the last one that is listed. -/
theorem getLast?_forks (registry : Registry ρ) :
    registry.forks.getLast? = some registry.newest := by
  unfold forks newest
  cases registry.candidate with
  | none =>
      have last := List.getLast?_eq_some_getLast (List.cons_ne_nil registry.genesis registry.later)
      rw [Option.map_none, Option.toList_none, List.append_nil, List.getLast?_map]
      exact congrArg (Option.map Fork.fixed) last
  | some candidate => exact List.getLast?_concat

/-- Nothing follows the newest fork. -/
theorem Sound.link?_newest (sound : registry.Sound) :
    registry.link? registry.newest.name = none := by
  obtain ⟨passed, order⟩ := List.getLast?_eq_some_iff.mp registry.getLast?_forks
  exact sound.link?_last order

/-- A name stands for the fork of a valid schedule that has it, and for none
otherwise. -/
theorem Sound.byName?_eq_some_iff (sound : registry.Sound) {name : String} {fork : Fork ρ} :
    registry.byName? name = some fork ↔ fork ∈ registry.forks ∧ fork.name = name := by
  constructor
  · intro h
    exact ⟨List.mem_of_find?_eq_some h, by simpa using List.find?_some h⟩
  · rintro ⟨hmem, rfl⟩
    exact sound.byName?_of_mem hmem

-- ================================================================== acceptance

/-- A registry lists the forks of a list, the candidate at the end, and its
links take in each of them once, in that order. -/
structure Chains (registry : Registry ρ) (forks : List (Fork ρ)) : Prop where
  listed : registry.forks
    = (Fork.fixedOf forks).map .fixed ++ (Fork.candidatesOf forks).map .candidate
  /-- Each fork of the list is there, and just once. -/
  all : registry.forks.Perm forks
  once : (registry.forks.map Fork.name).Nodup
  visited : ∀ visited, registry.Visits (.fixed registry.genesis) visited
    ↔ visited = registry.forks
  newest : registry.forks.getLast? = some registry.newest
  ends : registry.link? registry.newest.name = none
  named : ∀ name fork, registry.byName? name = some fork ↔ fork ∈ forks ∧ fork.name = name

/-- Exactly the valid lists of forks are accepted, and the registry of one
chains its forks, wherever in the list the candidate stood. -/
theorem accepted_iff_valid (forks : List (Fork ρ)) :
    ((∃ registry, create forks = .ok registry) ↔ Fork.ValidSchedule forks)
      ∧ ∀ registry, create forks = .ok registry → registry.Chains forks := by
  constructor
  · rw [validSchedule_iff]
    exact exists_congr fun registry => create_eq_ok_iff
  · intro registry created
    obtain ⟨sound, made⟩ := create_eq_ok_iff.mp created
    have visits : registry.Visits (.fixed registry.genesis) registry.forks := by
      have order : registry.forks = [] ++ .fixed registry.genesis
          :: (registry.later.map .fixed ++ (registry.candidate.map .candidate).toList) := rfl
      exact sound.visits order
    refine ⟨made.forks_eq, made.perm, sound.names, fun visited => ?_, registry.getLast?_forks,
      sound.link?_newest, fun name fork => ?_⟩
    · constructor
      · exact fun other => other.unique visits
      · rintro rfl
        exact visits
    · rw [sound.byName?_eq_some_iff, made.perm.mem_iff]

/-- The forks of `threeForks`, the candidate first. -/
def candidateFirst : List (Fork Unit) := [
  .candidate halfBehindTwo, .fixed ⟨"first", .genesis, ()⟩, .fixed ⟨"second", .clamp 3, ()⟩]

/-- They are valid, and the candidate is put at the end. -/
theorem candidate_first_accepted :
    Fork.ValidSchedule candidateFirst ∧ create candidateFirst = .ok threeForks
      ∧ threeForks.Visits (.fixed ⟨"first", .genesis, ()⟩) [.fixed ⟨"first", .genesis, ()⟩,
          .fixed ⟨"second", .clamp 3, ()⟩, .candidate halfBehindTwo] := by
  have created : create candidateFirst = .ok threeForks := rfl
  obtain ⟨accepted, chains⟩ := accepted_iff_valid candidateFirst
  exact ⟨accepted.mp ⟨_, created⟩, created, ((chains _ created).visited _).mpr rfl⟩

end Registry

end LedgerCore
