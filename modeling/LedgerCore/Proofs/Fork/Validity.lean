/-
What a registry that was created ensures. `Registry.Sound` is everything the
checks of `create` establish, and the only thing later proofs know of a
registry: names are distinct, the fixed forks start at the first epoch and
strictly ascend, and the candidate's window lies behind them. Nothing else is
checked: a list of forks makes a registry if and only if that registry is sound
and has the forks of the list (`create_eq_ok_iff`).

The second half reads look-ups off it. A name stands for one fork, so the
link out of a fork and the fork of a name are found where they should be.
-/
import LedgerCore.Fork.Registry
import Mathlib.Data.List.Nodup

namespace LedgerCore

variable {ρ : Type}

/-- A threshold that makes sense asks for an epoch at least. -/
theorem Threshold.epochs_pos {threshold : Threshold} (valid : threshold.isValid = true) :
    0 < threshold.epochs.toNat := by
  rw [isValid, Bool.and_eq_true, decide_eq_true_eq] at valid
  exact valid.2

/-- Fixed forks and candidates, each in order, are all the forks there are. -/
theorem Fork.fixedOf_candidatesOf_perm (forks : List (Fork ρ)) :
    ((fixedOf forks).map fixed ++ (candidatesOf forks).map candidate).Perm forks := by
  induction forks with
  | nil => exact .nil
  | cons fork rest ih =>
      cases fork with
      | fixed fork => exact ih.cons _
      | candidate fork => exact List.perm_middle.trans (ih.cons _)

namespace Registry

-- ================================================================== checks

/-- Distinct names are those among which no repeated one is found. -/
theorem firstRepeated?_eq_none_iff {seen names : List String} :
    firstRepeated? seen names = none ↔ names.Nodup ∧ ∀ name ∈ names, name ∉ seen := by
  induction names generalizing seen with
  | nil => exact iff_of_true rfl ⟨List.nodup_nil, nofun⟩
  | cons name rest ih =>
      unfold firstRepeated?
      split
      · next hold =>
          exact iff_of_false nofun fun ⟨_, hnew⟩ => hnew name List.mem_cons_self hold
      · next hnew =>
          rw [ih, List.nodup_cons, List.forall_mem_cons]
          constructor
          · rintro ⟨hrest, hseen⟩
            refine ⟨⟨fun hmem => hseen name hmem List.mem_cons_self, hrest⟩, hnew, ?_⟩
            exact fun other hother hmem => hseen other hother (List.mem_cons_of_mem _ hmem)
          · rintro ⟨⟨hname, hrest⟩, -, hseen⟩
            refine ⟨hrest, fun other hother hmem => ?_⟩
            rcases List.mem_cons.mp hmem with rfl | hmem
            · exact hname hother
            · exact hseen other hother hmem

/-- The forks that pass the check are those that come strictly one after the
other, although only neighbours are compared. -/
theorem checkIncreasing_eq_ok_iff {first : FixedFork ρ} {later : List (FixedFork ρ)} :
    checkIncreasing first.epoch later = .ok ()
      ↔ (first :: later).Pairwise fun a b => a.epoch < b.epoch := by
  induction later generalizing first with
  | nil => exact iff_of_true rfl (List.pairwise_singleton _ _)
  | cons fork rest ih =>
      unfold checkIncreasing
      split
      · next hle =>
          refine iff_of_false nofun fun ascending => Nat.not_lt.mpr hle ?_
          exact List.rel_of_pairwise_cons ascending List.mem_cons_self
      · next hnext =>
          have hlt : first.epoch < fork.epoch := Nat.lt_of_not_le hnext
          rw [ih, List.pairwise_cons (a := first)]
          refine ⟨fun ascending => ⟨fun other hother => ?_, ascending⟩, And.right⟩
          rcases List.mem_cons.mp hother with rfl | hother
          · exact hlt
          · exact Nat.lt_trans hlt (List.rel_of_pairwise_cons ascending hother)

/-- No fork is later than the last of an ascending list. -/
theorem le_lastEpoch {first fork : FixedFork ρ} {later : List (FixedFork ρ)}
    (h : (first :: later).Pairwise fun a b => a.epoch < b.epoch) (hmem : fork ∈ first :: later) :
    fork.epoch ≤ lastEpoch first later := by
  unfold lastEpoch
  induction later generalizing first fork with
  | nil =>
      rw [List.mem_singleton.mp hmem]
      exact Nat.le_refl _
  | cons second rest ih =>
      rw [List.getLast_cons (List.cons_ne_nil _ _)]
      have hrest := (List.pairwise_cons.mp h).2
      rcases List.mem_cons.mp hmem with rfl | hmem
      · exact Nat.le_trans (Nat.le_of_lt (List.rel_of_pairwise_cons h List.mem_cons_self))
          (ih hrest List.mem_cons_self)
      · exact ih hrest hmem

-- =============================================================== soundness

/-- A candidate that makes sense behind the fixed forks. -/
structure SoundCandidate (fixed : List (FixedFork ρ)) (candidate : CandidateFork ρ) : Prop where
  /-- Its window lies behind every fixed fork. -/
  behind : ∀ fork ∈ fixed, fork.epoch < candidate.schedule.minEpoch
  window : candidate.schedule.minEpoch ≤ candidate.schedule.maxEpoch
  asked : candidate.schedule.thresholds ≠ []
  valid : ∀ threshold ∈ candidate.schedule.thresholds, threshold.isValid = true

/-- No threshold of a sound candidate is met by no epoch at all. -/
theorem SoundCandidate.epochs_pos {fixed : List (FixedFork ρ)} {candidate : CandidateFork ρ}
    (sound : SoundCandidate fixed candidate) :
    ∀ threshold ∈ candidate.schedule.thresholds, 0 < threshold.epochs.toNat :=
  fun threshold hmem => Threshold.epochs_pos (sound.valid threshold hmem)

/-- What every registry that was created has. -/
structure Sound (registry : Registry ρ) : Prop where
  starts : registry.genesis.epoch = .genesis
  ascending : registry.fixed.Pairwise fun a b => a.epoch < b.epoch
  names : (registry.forks.map Fork.name).Nodup
  candidate : ∀ candidate, registry.candidate = some candidate →
    SoundCandidate registry.fixed candidate

/-- The schedules that are accepted are those with a window and with
thresholds, all of which make sense. -/
theorem validate_eq_ok_iff {schedule : CandidateSchedule} {name : String} :
    schedule.validate name = .ok ()
      ↔ schedule.minEpoch ≤ schedule.maxEpoch ∧ schedule.thresholds ≠ []
        ∧ ∀ threshold ∈ schedule.thresholds, threshold.isValid = true := by
  unfold CandidateSchedule.validate
  split
  · next hwindow =>
      exact iff_of_false nofun fun ⟨window, _⟩ => Nat.not_lt.mpr window hwindow
  next hwindow =>
  split
  · next hnil =>
      exact iff_of_false nofun fun ⟨_, asked, _⟩ => asked (List.isEmpty_iff.mp hnil)
  next hasked =>
  split
  · next threshold hfind =>
      refine iff_of_false nofun fun ⟨_, _, valid⟩ => ?_
      have refused := List.find?_some hfind
      rw [valid threshold (List.mem_of_find?_eq_some hfind)] at refused
      cases refused
  · next hnone =>
      refine iff_of_true rfl ⟨Nat.le_of_not_lt hwindow, fun hnil => ?_, fun threshold hmem => ?_⟩
      · exact hasked (List.isEmpty_iff.mpr hnil)
      · simpa using List.find?_eq_none.mp hnone threshold hmem

/-- The candidates that pass the check are those that make sense behind the
fixed forks. -/
theorem checkCandidate_eq_ok_iff {first : FixedFork ρ} {later : List (FixedFork ρ)}
    {candidate : CandidateFork ρ}
    (ascending : (first :: later).Pairwise fun a b => a.epoch < b.epoch) :
    checkCandidate (lastEpoch first later) candidate = .ok ()
      ↔ SoundCandidate (first :: later) candidate := by
  unfold checkCandidate
  simp only [bind, Except.bind, throw, throwThe, MonadExceptOf.throw]
  split
  · next hrefused =>
      refine iff_of_false nofun fun sound => ?_
      rw [validate_eq_ok_iff.mpr ⟨sound.window, sound.asked, sound.valid⟩] at hrefused
      cases hrefused
  next haccepted =>
  split
  · next hoverlaps =>
      refine iff_of_false nofun fun sound => Nat.not_lt.mpr hoverlaps ?_
      exact sound.behind _ (List.getLast_mem _)
  · next hbehind =>
      obtain ⟨window, asked, valid⟩ := validate_eq_ok_iff.mp haccepted
      refine iff_of_true rfl ⟨fun fork hfork => ?_, window, asked, valid⟩
      exact Nat.lt_of_le_of_lt (le_lastEpoch ascending hfork) (Nat.lt_of_not_le hbehind)

/-- A registry has the forks of a list: its fixed forks are those of the list,
in order, and its candidate is the only one there. -/
structure MadeOf (registry : Registry ρ) (forks : List (Fork ρ)) : Prop where
  fixed : Fork.fixedOf forks = registry.fixed
  candidates : Fork.candidatesOf forks = registry.candidate.toList

section MadeOf

variable {registry : Registry ρ} {forks : List (Fork ρ)}

/-- Then it lists the fixed ones first, wherever the candidate stood. -/
theorem MadeOf.forks_eq (made : registry.MadeOf forks) :
    registry.forks
      = (Fork.fixedOf forks).map .fixed ++ (Fork.candidatesOf forks).map .candidate := by
  rw [Registry.forks, made.fixed, made.candidates]
  cases registry.candidate <;> rfl

theorem MadeOf.perm (made : registry.MadeOf forks) : registry.forks.Perm forks := by
  rw [made.forks_eq]
  exact Fork.fixedOf_candidatesOf_perm forks

/-- A list of forks has one such registry at most. -/
theorem MadeOf.unique {other : Registry ρ} (made : registry.MadeOf forks)
    (made' : other.MadeOf forks) : registry = other := by
  obtain ⟨genesis, later⟩ := List.cons.inj (made.fixed.symm.trans made'.fixed)
  have candidate : registry.candidate = other.candidate := by
    simpa using congrArg List.head? (made.candidates.symm.trans made'.candidates)
  cases registry
  cases other
  cases genesis
  cases later
  cases candidate
  rfl

/-- A list of one element or none is its head. -/
theorem toList_head?_of_length {α : Type} {l : List α} (h : ¬ 1 < l.length) :
    l.head?.toList = l := by
  match l with
  | [] => rfl
  | [a] => rfl
  | a :: b :: rest => exact absurd (Nat.succ_lt_succ (Nat.succ_pos rest.length)) h

/-- The one registry that a list of forks can make is the answer if it is sound. -/
theorem MadeOf.accepted {only : Registry ρ} (made : only.MadeOf forks) (sound : only.Sound) :
    (Except.ok only : Except ForkConfigError (Registry ρ)) = .ok registry
      ↔ registry.Sound ∧ registry.MadeOf forks := by
  constructor
  · intro answered
    cases answered
    exact ⟨sound, made⟩
  · rintro ⟨-, made'⟩
    rw [made.unique made']

/-- If it is not sound, the list is refused. -/
theorem MadeOf.refused {only : Registry ρ} (made : only.MadeOf forks) (unsound : ¬ only.Sound)
    {cause : ForkConfigError} :
    (Except.error cause : Except ForkConfigError (Registry ρ)) = .ok registry
      ↔ registry.Sound ∧ registry.MadeOf forks := by
  refine iff_of_false nofun ?_
  rintro ⟨sound, made'⟩
  apply unsound
  rwa [made.unique made']

/-- A list of forks makes a registry if and only if that registry is sound and
has the forks of the list. -/
theorem create_eq_ok_iff :
    create forks = .ok registry ↔ registry.Sound ∧ registry.MadeOf forks := by
  unfold create
  simp only [bind, Except.bind, pure, Except.pure, throw, throwThe, MonadExceptOf.throw]
  split
  · next name hrepeated =>
      refine iff_of_false nofun fun ⟨sound, made⟩ => ?_
      have distinct := (made.perm.map Fork.name).nodup_iff.mp sound.names
      rw [firstRepeated?_eq_none_iff.mpr ⟨distinct, fun _ _ => List.not_mem_nil⟩] at hrepeated
      cases hrepeated
  next hdistinct =>
  split
  · next hmany =>
      refine iff_of_false nofun fun ⟨_, made⟩ => Nat.not_lt.mpr ?_ hmany
      rw [made.candidates]
      exact Option.length_toList_le
  next hone =>
  split
  · next hnone =>
      refine iff_of_false nofun fun ⟨_, made⟩ => ?_
      rw [made.fixed] at hnone
      cases hnone
  next genesis later hfixed =>
  -- From here on there is one registry only, and each check is about it.
  have made : (Registry.mk genesis later (Fork.candidatesOf forks).head?).MadeOf forks :=
    ⟨hfixed, (toList_head?_of_length hone).symm⟩
  split
  · next hlate => exact made.refused fun sound => hlate sound.starts
  next hstarts =>
  split
  · next hrefused =>
      refine made.refused fun sound => ?_
      rw [checkIncreasing_eq_ok_iff.mpr sound.ascending] at hrefused
      cases hrefused
  next hincreasing =>
  have starts : genesis.epoch = .genesis := Decidable.not_not.mp hstarts
  have ascending := checkIncreasing_eq_ok_iff.mp hincreasing
  have hnone := Option.eq_none_iff_forall_ne_some.mpr hdistinct
  have names := (made.perm.map Fork.name).nodup_iff.mpr (firstRepeated?_eq_none_iff.mp hnone).1
  split
  · next candidate hcandidate =>
      split
      · next hrefused =>
          refine made.refused fun sound => ?_
          have behind := sound.candidate candidate hcandidate
          rw [(checkCandidate_eq_ok_iff ascending).mpr behind] at hrefused
          cases hrefused
      · next hcheck =>
          refine made.accepted ⟨starts, ascending, names, fun other hother => ?_⟩
          obtain rfl := Option.some.inj (hcandidate.symm.trans hother)
          exact (checkCandidate_eq_ok_iff ascending).mp hcheck
  · next hnone =>
      refine made.accepted ⟨starts, ascending, names, fun candidate hcandidate => ?_⟩
      exact absurd hcandidate (hnone candidate)

/-- A created registry is sound. -/
theorem sound_of_create (h : create forks = .ok registry) : registry.Sound :=
  (create_eq_ok_iff.mp h).1

end MadeOf

-- ================================================================ look-ups

/-- Among distinct keys, the element of a key is the one that has it. -/
theorem find?_key_of_mem {α κ : Type} [DecidableEq κ] {key : α → κ} {l : List α} {a : α}
    (distinct : (l.map key).Nodup) (h : a ∈ l) : (l.find? fun b => key b == key a) = some a := by
  induction l with
  | nil => cases h
  | cons b rest ih =>
      obtain ⟨hb, hrest⟩ := List.nodup_cons.mp distinct
      rcases List.mem_cons.mp h with rfl | hmem
      · simp
      · have hne : key b ≠ key a := fun heq => hb (heq ▸ List.mem_map_of_mem hmem)
        rw [List.find?_cons, beq_eq_false_iff_ne.mpr hne]
        exact ih hrest hmem

namespace Sound

variable {registry : Registry ρ}

theorem byName?_of_mem (sound : registry.Sound) {fork : Fork ρ} (h : fork ∈ registry.forks) :
    registry.byName? fork.name = some fork := find?_key_of_mem sound.names h

/-- The forks of a registry are known to it by name. -/
theorem known (sound : registry.Sound) {fork : Fork ρ} (h : fork ∈ registry.forks) :
    ¬ (registry.byName? fork.name).isNone = true := by
  rw [sound.byName?_of_mem h]
  exact Bool.false_ne_true

/-- The names of the fixed forks are distinct, and none is the candidate's. -/
theorem fixed_names (sound : registry.Sound) :
    (registry.fixed.map FixedFork.name).Nodup
      ∧ ∀ candidate, registry.candidate = some candidate →
          ∀ fork ∈ registry.fixed, fork.name ≠ candidate.name := by
  have names := sound.names
  rw [forks, List.map_append, List.map_map, List.nodup_append] at names
  obtain ⟨hfixed, -, hapart⟩ := names
  refine ⟨hfixed, fun candidate hcandidate fork hfork => ?_⟩
  refine hapart fork.name (List.mem_map_of_mem hfork) candidate.name ?_
  rw [hcandidate]
  exact List.mem_singleton_self _

theorem eq_of_name_eq (sound : registry.Sound) {fork other : FixedFork ρ}
    (h : fork ∈ registry.fixed) (h' : other ∈ registry.fixed) (same : fork.name = other.name) :
    fork = other := List.inj_on_of_nodup_map sound.fixed_names.1 h h' same

/-- An epoch belongs to one fixed fork. -/
theorem eq_of_epoch_eq (sound : registry.Sound) {fork other : FixedFork ρ}
    (h : fork ∈ registry.fixed) (h' : other ∈ registry.fixed) (same : fork.epoch = other.epoch) :
    fork = other := by
  have distinct : (registry.fixed.map FixedFork.epoch).Nodup := by
    rw [List.Nodup, List.pairwise_map]
    refine sound.ascending.imp fun {a b} hlt heq => ?_
    rw [heq] at hlt
    exact Nat.lt_irrefl _ hlt
  exact List.inj_on_of_nodup_map distinct h h' same

/-- The link out of a fixed fork is that of its place in the order. -/
theorem link?_fixed (sound : registry.Sound) {index : Nat} {fork : FixedFork ρ}
    (h : registry.fixed[index]? = some fork) :
    registry.link? fork.name = registry.linkAt index := by
  have hplace : (registry.fixed.findIdx? fun other => other.name == fork.name) = some index := by
    obtain ⟨hlt, hget⟩ := List.getElem?_eq_some_iff.mp h
    refine List.findIdx?_eq_some_iff_getElem.mpr ⟨hlt, by rw [hget]; exact beq_self_eq_true _, ?_⟩
    intro earlier hearlier heq
    have hsame := sound.eq_of_name_eq (List.getElem_mem _) (List.mem_of_getElem? h)
      (beq_iff_eq.mp heq)
    have hbefore := List.pairwise_iff_getElem.mp sound.ascending earlier index
      (Nat.lt_trans hearlier hlt) hlt hearlier
    rw [hsame, hget] at hbefore
    exact Nat.lt_irrefl _ hbefore
  rw [link?, hplace]
  rfl

/-- A fixed fork further on in the order is not an earlier one. -/
theorem epoch_le_of_index_le (sound : registry.Sound) {i j : Nat} {fork other : FixedFork ρ}
    (hij : i ≤ j) (h : registry.fixed[i]? = some fork) (h' : registry.fixed[j]? = some other) :
    fork.epoch ≤ other.epoch := by
  obtain ⟨hi, rfl⟩ := List.getElem?_eq_some_iff.mp h
  obtain ⟨hj, rfl⟩ := List.getElem?_eq_some_iff.mp h'
  rcases Nat.eq_or_lt_of_le hij with rfl | hlt
  · exact Nat.le_refl _
  · exact Nat.le_of_lt (List.pairwise_iff_getElem.mp sound.ascending i j hi hj hlt)

/-- The link out of a fixed fork leads to the fixed fork that comes next, and
out of the last one to the candidate, if there is one. -/
theorem link?_of_mem (sound : registry.Sound) {fork : FixedFork ρ} (h : fork ∈ registry.fixed) :
    (∃ index next, registry.link? fork.name = some (.fixed index)
        ∧ registry.fixed[index]? = some next
        ∧ ∀ other ∈ registry.fixed, fork.epoch < other.epoch ↔ next.epoch ≤ other.epoch)
      ∨ registry.link? fork.name = registry.candidate.map (fun _ => .candidate)
        ∧ ∀ other ∈ registry.fixed, other.epoch ≤ fork.epoch := by
  obtain ⟨index, hindex⟩ := List.mem_iff_getElem?.mp h
  rw [sound.link?_fixed hindex, linkAt]
  split
  · next hlt =>
      -- there is a fork behind it; indices and epochs ascend together
      have hnext := List.getElem?_eq_getElem hlt
      refine .inl ⟨index + 1, registry.fixed[index + 1], rfl, hnext, fun other hother => ?_⟩
      obtain ⟨place, hplace⟩ := List.mem_iff_getElem?.mp hother
      constructor
      · intro hlater
        refine sound.epoch_le_of_index_le ?_ hnext hplace
        refine Nat.lt_of_not_le fun hle => Nat.not_lt.mpr ?_ hlater
        exact sound.epoch_le_of_index_le hle hplace hindex
      · intro hle
        obtain ⟨hindex', rfl⟩ := List.getElem?_eq_some_iff.mp hindex
        refine Nat.lt_of_lt_of_le ?_ hle
        exact List.pairwise_iff_getElem.mp sound.ascending _ _ hindex' hlt (Nat.lt_succ_self _)
  · next hlast =>
      -- it is the last of the fixed forks
      refine .inr ⟨?_, fun other hother => ?_⟩
      · cases registry.candidate <;> rfl
      · obtain ⟨place, hplace⟩ := List.mem_iff_getElem?.mp hother
        refine sound.epoch_le_of_index_le ?_ hplace hindex
        have hbound := (List.getElem?_eq_some_iff.mp hplace).1
        omega

/-- Nothing follows the candidate. -/
theorem link?_candidate (sound : registry.Sound) {candidate : CandidateFork ρ}
    (h : registry.candidate = some candidate) : registry.link? candidate.name = none := by
  have hnone : (registry.fixed.findIdx? fun fork => fork.name == candidate.name) = none := by
    refine List.findIdx?_eq_none_iff.mpr fun fork hfork => ?_
    exact beq_eq_false_iff_ne.mpr (sound.fixed_names.2 candidate h fork hfork)
  rw [link?, hnone]
  rfl

end Sound

end Registry

end LedgerCore
