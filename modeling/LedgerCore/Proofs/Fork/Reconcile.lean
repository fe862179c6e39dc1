/-
Startup on a consistent history. A history is consistent with the schedule
up to an epoch if it records only what the schedule allows, nothing past that
epoch, and the candidate just where the votes enact it or, if they did so by
that epoch, not at all (`Registry.Consistent`).

Reconciling such a history succeeds and adds what was missed: the fixed forks
that were passed and the enactment of the candidate (`run_reconcile`). The
proof follows the steps of `reconcile`. None of them meets a conflict, because
at every epoch the schedule allows at most one fork (`Sound.eq_of_allows`).
-/
import LedgerCore.Proofs.Fork.Enactment

namespace LedgerCore

variable {ρ : Type}

-- ================================================================ activations

namespace History

/-- A history once an activation is recorded. -/
def activate (history : History) (epoch : Epoch) (name : String) : History :=
  { history with activations := history.activations.insert epoch name }

/-- An activation is on record for its epoch, and no other changes. -/
theorem activations_activate (history : History) (epoch e : Epoch) (name : String) :
    (history.activate epoch name).activations[e]?
      = if epoch = e then some name else history.activations[e]? := by
  simp [activate, Std.ExtTreeMap.getElem?_insert]

theorem eq_of_getElem? {a b : History} (hshares : a.shares = b.shares)
    (h : ∀ e : Epoch, a.activations[e]? = b.activations[e]?) : a = b :=
  History.ext (Std.ExtTreeMap.ext_getElem? h) hshares

/-- One history is another with activations added, and nothing else changed. -/
structure Adds (history after : History) (added : Epoch → String → Prop) : Prop where
  shares : after.shares = history.shares
  recorded : ∀ e name, after.activations[e]? = some name ↔
    history.activations[e]? = some name ∨ added e name

namespace Adds

variable {history middle after other : History} {added more : Epoch → String → Prop}

/-- Nothing is added to a history that already has it all. -/
theorem refl (h : ∀ e name, added e name → history.activations[e]? = some name) :
    history.Adds history added :=
  ⟨rfl, fun e name => (or_iff_left_of_imp (h e name)).symm⟩

theorem trans (h : history.Adds middle added) (h' : middle.Adds after more) :
    history.Adds after fun e name => added e name ∨ more e name := by
  refine ⟨h'.shares.trans h.shares, fun e name => ?_⟩
  rw [h'.recorded, h.recorded, or_assoc]

/-- Additions that differ only in what was there before are the same. -/
theorem congr (h : history.Adds after added)
    (same : ∀ e name, history.activations[e]? = some name ∨ added e name ↔
      history.activations[e]? = some name ∨ more e name) : history.Adds after more :=
  ⟨h.shares, fun e name => (h.recorded e name).trans (same e name)⟩

/-- What was there and what is added determine a history. -/
theorem unique (h : history.Adds after added) (h' : history.Adds other added) :
    after = other := by
  refine eq_of_getElem? (h.shares.trans h'.shares.symm) fun e => ?_
  refine Option.ext fun name => ?_
  rw [h.recorded, h'.recorded]

end Adds

end History

namespace Registry

-- =============================================================== what is allowed

variable {registry : Registry ρ} {history after : History} {now : Epoch}

/-- What the schedule allows: the fixed forks at their epochs, and the
candidate in its window. -/
theorem allows_iff {epoch : Epoch} {name : String} :
    registry.allows epoch name = true ↔
      (∃ fork ∈ registry.fixed, fork.epoch = epoch ∧ fork.name = name)
        ∨ ∃ candidate, registry.candidate = some candidate
            ∧ candidate.schedule.windowContains epoch = true ∧ candidate.name = name := by
  simp only [allows, Bool.or_eq_true, List.any_eq_true, Bool.and_eq_true, beq_iff_eq,
    Option.any_eq_true]

theorem allows_fixed {fork : FixedFork ρ} (h : fork ∈ registry.fixed) :
    registry.allows fork.epoch fork.name = true :=
  allows_iff.mpr (.inl ⟨fork, h, rfl, rfl⟩)

/-- The window of the candidate lies behind every fixed fork. -/
theorem Sound.lt_of_windowContains (sound : registry.Sound) {candidate : CandidateFork ρ}
    (hcandidate : registry.candidate = some candidate) {epoch : Epoch}
    (hwindow : candidate.schedule.windowContains epoch = true) {fork : FixedFork ρ}
    (hfork : fork ∈ registry.fixed) : fork.epoch < epoch := by
  exact Nat.lt_of_lt_of_le ((sound.candidate candidate hcandidate).behind fork hfork)
    (CandidateSchedule.windowContains_iff.mp hwindow).1

/-- At every epoch the schedule allows at most one fork. -/
theorem Sound.eq_of_allows (sound : registry.Sound) {epoch : Epoch} {name other : String}
    (h : registry.allows epoch name = true) (h' : registry.allows epoch other = true) :
    name = other := by
  rcases allows_iff.mp h with ⟨fork, hfork, hepoch, rfl⟩ | ⟨candidate, hc, hwindow, rfl⟩ <;>
    rcases allows_iff.mp h' with ⟨fork', hfork', hepoch', rfl⟩ | ⟨candidate', hc', hwindow', rfl⟩
  · rw [sound.eq_of_epoch_eq hfork hfork' (hepoch.trans hepoch'.symm)]
  · exact absurd hepoch (Nat.ne_of_lt (sound.lt_of_windowContains hc' hwindow' hfork) ∘
      congrArg Epoch.toNat)
  · exact absurd hepoch' (Nat.ne_of_lt (sound.lt_of_windowContains hc hwindow hfork') ∘
      congrArg Epoch.toNat)
  · rw [Option.some.inj (hc.symm.trans hc')]

/-- A history that records only what the schedule allows. -/
def Allowed (registry : Registry ρ) (history : History) : Prop :=
  ∀ e name, history.activations[e]? = some name → registry.allows e name = true

/-- Additions that the registry allows keep a record allowed. -/
theorem Allowed.adds {added : Epoch → String → Prop} (allowed : registry.Allowed history)
    (h : history.Adds after added)
    (hadded : ∀ e name, added e name → registry.allows e name = true) :
    registry.Allowed after := by
  intro e name hname
  rcases (h.recorded e name).mp hname with hold | hnew
  · exact allowed e name hold
  · exact hadded e name hnew

-- ================================================================ computations

variable {α β : Type}

/-- What follows a computation that succeeds. -/
theorem run_bind_ok {σ : Type} {x : Action σ α} {next : α → Action σ β} {store after : σ} {a : α}
    (h : x.run store = (.ok a, after)) : (x >>= next).run store = (next a).run after := by
  show (x.run >>= ExceptT.bindCont next).run store = _
  rw [StateT.run_bind]
  have h' : x.run.run store = pure (.ok a, after) := h
  rw [h']
  rfl

/-- What follows a computation that fails does not run. -/
theorem run_bind_error {σ : Type} {x : Action σ α} {next : α → Action σ β} {store after : σ}
    {cause : ForkError} (h : x.run store = (.error cause, after)) :
    (x >>= next).run store = (.error cause, after) := by
  show (x.run >>= ExceptT.bindCont next).run store = _
  rw [StateT.run_bind]
  have h' : x.run.run store = pure (.error cause, after) := h
  rw [h']
  rfl

/-- A computation of two parts fails in the first, or goes on with the second
where the first has left off. -/
theorem run_bind_cases {σ : Type} {x : Action σ α} {next : α → Action σ β} {store after : σ}
    {outcome : Except ForkError β} (h : (x >>= next).run store = (outcome, after)) :
    (∃ cause, x.run store = (.error cause, after))
      ∨ ∃ a middle, x.run store = (.ok a, middle) ∧ (next a).run middle = (outcome, after) := by
  rcases hfirst : x.run store with ⟨answer, middle⟩
  cases answer with
  | ok a =>
      rw [run_bind_ok hfirst] at h
      exact .inr ⟨a, middle, rfl, h⟩
  | error cause =>
      rw [run_bind_error hfirst] at h
      cases h
      exact .inl ⟨cause, rfl⟩

/-- A computation of two parts succeeds only if the first part does, and the
second does on what the first left. -/
theorem exists_of_run_bind_ok {σ : Type} {x : Action σ α} {next : α → Action σ β}
    {store after : σ} {b : β} (h : (x >>= next).run store = (.ok b, after)) :
    ∃ a middle, x.run store = (.ok a, middle) ∧ (next a).run middle = (.ok b, after) := by
  refine (run_bind_cases h).resolve_left ?_
  rintro ⟨cause, failed⟩
  rw [run_bind_error failed] at h
  cases h

theorem run_activations (history : History) :
    (onStore ActivationStore.activations).run history = (.ok history.activations, history) := rfl

/-- An activation that the store takes is recorded. -/
theorem run_recordActivation_of_ok {epoch : Epoch} {name : String}
    (h : history.recordActivation epoch name = .ok after) :
    (onStore (ActivationStore.recordActivation epoch name)).run history = (.ok (), after) := by
  simp [onStore, ActivationStore.recordActivation, h]

/-- An activation that is refused changes nothing. -/
theorem run_recordActivation_of_error {epoch : Epoch} {name : String} {cause : StoreError}
    (h : history.recordActivation epoch name = .error cause) :
    (onStore (ActivationStore.recordActivation epoch name)).run history
      = (.error (.store cause), history) := by
  simp [onStore, ActivationStore.recordActivation, h]

/-- How recording an activation ends: it is recorded, or refused and nothing
is changed. -/
inductive Records (history : History) (epoch : Epoch) (name : String) :
    Except ForkError Unit → History → Prop
  | recorded {after : History} (h : history.recordActivation epoch name = .ok after) :
      Records history epoch name (.ok ()) after
  | refused {cause : StoreError} (h : history.recordActivation epoch name = .error cause) :
      Records history epoch name (.error (.store cause)) history

/-- To record an activation puts it on record, or is refused and changes
nothing. -/
theorem records_of_run {epoch : Epoch} {name : String} {outcome : Except ForkError Unit}
    (h : (onStore (ActivationStore.recordActivation epoch name)).run history = (outcome, after)) :
    Records history epoch name outcome after := by
  cases hrecord : history.recordActivation epoch name with
  | ok recorded =>
      rw [run_recordActivation_of_ok hrecord] at h
      cases h
      exact .recorded hrecord
  | error cause =>
      rw [run_recordActivation_of_error hrecord] at h
      cases h
      exact .refused hrecord

/-- Recording an activation that is there changes nothing. -/
theorem run_recordActivation_of_recorded {epoch : Epoch} {name : String}
    (h : history.activations[epoch]? = some name) :
    (onStore (ActivationStore.recordActivation epoch name)).run history = (.ok (), history) := by
  refine run_recordActivation_of_ok ?_
  rw [History.recordActivation, h]
  exact if_pos rfl

/-- In an allowed history, an allowed activation can be recorded. -/
theorem run_recordActivation (sound : registry.Sound) (allowed : registry.Allowed history)
    {epoch : Epoch} {name : String} (h : registry.allows epoch name = true) :
    ∃ after, (onStore (ActivationStore.recordActivation epoch name)).run history = (.ok (), after)
      ∧ history.Adds after fun e n => epoch = e ∧ name = n := by
  cases hexisting : history.activations[epoch]? with
  | some existing =>
      obtain rfl := sound.eq_of_allows (allowed epoch existing hexisting) h
      refine ⟨history, run_recordActivation_of_recorded hexisting, .refl ?_⟩
      intro _ _ h
      obtain ⟨rfl, rfl⟩ := h
      exact hexisting
  | none =>
      refine ⟨history.activate epoch name, run_recordActivation_of_ok ?_, rfl, ?_⟩
      · rw [History.recordActivation, hexisting]
        rfl
      · intro e n
        rw [History.activations_activate]
        split
        · next heq =>
            subst heq
            simp [hexisting]
        · next hne => simp [hne]

-- ================================================================= look-ups

theorem isRecorded_iff {activations : Activations} {name : String} :
    isRecorded activations name = true ↔ ∃ e : Epoch, activations[e]? = some name := by
  simp [isRecorded, List.any_eq_true, Std.ExtTreeMap.mem_toList_iff_getElem?_eq_some]

/-- Where a name is recorded, it can be looked up. -/
theorem getElem?_of_recordedAt? {activations : Activations} {name : String} {epoch : Epoch}
    (h : recordedAt? activations name = some epoch) : activations[epoch]? = some name := by
  obtain ⟨⟨e, n⟩, hfind, rfl⟩ := Option.map_eq_some_iff.mp h
  have hname : n = name := by simpa using List.find?_some hfind
  rw [← hname]
  exact Std.ExtTreeMap.mem_toList_iff_getElem?_eq_some.mp (List.mem_of_find?_eq_some hfind)

variable (registry) in
/-- The enactment of the candidate depends on the votes only. -/
theorem enactment?_congr (h : after.shares = history.shares) :
    registry.enactment? after = registry.enactment? history := by
  unfold enactment? CandidateFork.votes History.votes
  rw [h]

/-- The candidate is enacted in its window. -/
theorem window_of_enactment? {candidate : CandidateFork ρ}
    (hcandidate : registry.candidate = some candidate) {epoch : Epoch}
    (h : registry.enactment? history = some epoch) :
    candidate.schedule.windowContains epoch = true := by
  have ascending : Ascending (candidate.votes history) := History.votes_ascending ..
  rw [enactment?, hcandidate, Option.bind_some,
    CandidateSchedule.firstEnactment?_eq_find? ascending] at h
  obtain ⟨result, hfind, rfl⟩ := Option.map_eq_some_iff.mp h
  have hdue := List.find?_some hfind
  exact (Bool.and_eq_true_iff.mp hdue).1

/-- The candidate is enacted behind every fixed fork. -/
theorem Sound.lt_enactment (sound : registry.Sound) {epoch : Epoch}
    (h : registry.enactment? history = some epoch) {fork : FixedFork ρ}
    (hfork : fork ∈ registry.fixed) : fork.epoch < epoch := by
  obtain ⟨candidate, hcandidate⟩ := exists_candidate_of_enactment? h
  exact sound.lt_of_windowContains hcandidate (window_of_enactment? hcandidate h) hfork

/-- A candidate may be on record for the epoch it is enacted at. -/
theorem allows_enactment {candidate : CandidateFork ρ}
    (hcandidate : registry.candidate = some candidate) {epoch : Epoch}
    (h : registry.enactment? history = some epoch) :
    registry.allows epoch candidate.name = true :=
  allows_iff.mpr (.inr ⟨candidate, hcandidate, window_of_enactment? hcandidate h, rfl⟩)

-- ============================================================ what is missed

/-- The fixed forks that are passed but not recorded are recorded. -/
theorem run_recordMissedFixed (sound : registry.Sound) (recorded : Activations) (now : Epoch)
    {forks : List (FixedFork ρ)} (hforks : ∀ fork ∈ forks, fork ∈ registry.fixed)
    (allowed : registry.Allowed history) :
    ∃ after, (recordMissedFixed recorded now forks).run history = (.ok (), after)
      ∧ history.Adds after fun e name => ∃ fork ∈ forks,
          (fork.epoch ≤ now ∧ isRecorded recorded fork.name = false)
            ∧ fork.epoch = e ∧ fork.name = name := by
  induction forks generalizing history with
  | nil => exact ⟨history, rfl, .refl (by simp)⟩
  | cons fork rest ih =>
      have hrest : ∀ other ∈ rest, other ∈ registry.fixed :=
        fun other hother => hforks other (List.mem_cons_of_mem _ hother)
      unfold recordMissedFixed
      by_cases hmissed : fork.epoch ≤ now ∧ isRecorded recorded fork.name = false
      · have hallows := allows_fixed (hforks fork List.mem_cons_self)
        obtain ⟨middle, hrun, hadds⟩ := run_recordActivation sound allowed hallows
        have hmiddle : registry.Allowed middle := allowed.adds hadds (by
          intro _ _ h
          obtain ⟨rfl, rfl⟩ := h
          exact hallows)
        obtain ⟨after, hafter, hadds'⟩ := ih hrest hmiddle
        refine ⟨after, ?_, (hadds.trans hadds').congr fun e name => ?_⟩
        · rw [if_pos (by simpa using hmissed), run_bind_ok hrun, hafter]
        · simp only [List.exists_mem_cons_iff, and_iff_right hmissed]
      · obtain ⟨after, hafter, hadds⟩ := ih hrest allowed
        refine ⟨after, ?_, hadds.congr fun e name => ?_⟩
        · rw [if_neg (by simpa using hmissed)]
          exact hafter
        · simp only [List.exists_mem_cons_iff, hmissed, false_and, false_or]

/-- The candidate is recorded where the votes enact it, if it is not there
already. -/
theorem run_recordMissedCandidate (sound : registry.Sound) (recorded : Activations)
    (allowed : registry.Allowed history)
    (stored : ∀ candidate epoch, registry.candidate = some candidate →
      recordedAt? recorded candidate.name = some epoch →
        registry.enactment? history = some epoch) :
    ∃ after, (registry.recordMissedCandidate recorded).run history = (.ok (), after)
      ∧ history.Adds after fun e name => ∃ candidate, registry.candidate = some candidate
          ∧ recordedAt? recorded candidate.name = none
          ∧ registry.enactment? history = some e ∧ candidate.name = name := by
  unfold recordMissedCandidate
  cases hcandidate : registry.candidate with
  | none => exact ⟨history, rfl, .refl (by simp)⟩
  | some candidate =>
      dsimp only
      rw [run_bind_ok (registry.run_findEnactment history)]
      cases hstored : recordedAt? recorded candidate.name with
      | some epoch =>
          refine ⟨history, ?_, .refl (by simp [hstored])⟩
          rw [stored candidate epoch hcandidate hstored]
          simp only [ne_eq, not_true_eq_false, if_false]
          rfl
      | none =>
          cases henacted : registry.enactment? history with
          | none => exact ⟨history, rfl, .refl (by simp)⟩
          | some epoch =>
              obtain ⟨after, hrun, hadds⟩ :=
                run_recordActivation sound allowed (allows_enactment hcandidate henacted)
              exact ⟨after, hrun, hadds.congr (by simp [hstored])⟩

/-- How recording a candidate that was missed ends, by what was on record of it
and where the votes enact it. -/
inductive RecordsCandidate (registry : Registry ρ) (recorded : Activations) (history : History) :
    Except ForkError Unit → History → Prop
  | absent (unlisted : registry.candidate = none) :
      RecordsCandidate registry recorded history (.ok ()) history
  | waiting {candidate : CandidateFork ρ} (listed : registry.candidate = some candidate)
      (unstored : recordedAt? recorded candidate.name = none)
      (unenacted : registry.enactment? history = none) :
      RecordsCandidate registry recorded history (.ok ()) history
  | confirmed {candidate : CandidateFork ρ} {epoch : Epoch}
      (listed : registry.candidate = some candidate)
      (stored : recordedAt? recorded candidate.name = some epoch)
      (enacted : registry.enactment? history = some epoch) :
      RecordsCandidate registry recorded history (.ok ()) history
  | contradicted {candidate : CandidateFork ρ} {epoch : Epoch} {cause : ForkError}
      (listed : registry.candidate = some candidate)
      (stored : recordedAt? recorded candidate.name = some epoch)
      (differs : registry.enactment? history ≠ some epoch) :
      RecordsCandidate registry recorded history (.error cause) history
  | missed {candidate : CandidateFork ρ} {epoch : Epoch} {outcome : Except ForkError Unit}
      {after : History} (listed : registry.candidate = some candidate)
      (unstored : recordedAt? recorded candidate.name = none)
      (enacted : registry.enactment? history = some epoch)
      (records : Records history epoch candidate.name outcome after) :
      RecordsCandidate registry recorded history outcome after

/-- What was on record of the candidate and what the votes say are all that the
outcome depends on. -/
theorem recordsCandidate_of_run {recorded : Activations} {outcome : Except ForkError Unit}
    (h : (registry.recordMissedCandidate recorded).run history = (outcome, after)) :
    registry.RecordsCandidate recorded history outcome after := by
  unfold recordMissedCandidate at h
  cases listed : registry.candidate with
  | none =>
      rw [listed] at h
      cases h
      exact .absent listed
  | some candidate =>
      rw [listed] at h
      dsimp only at h
      rw [run_bind_ok (registry.run_findEnactment history)] at h
      cases stored : recordedAt? recorded candidate.name with
      | none =>
          cases enacted : registry.enactment? history with
          | none =>
              rw [enacted, stored] at h
              cases h
              exact .waiting listed stored enacted
          | some epoch =>
              rw [enacted, stored] at h
              exact .missed listed stored enacted (records_of_run h)
      | some epoch =>
          cases enacted : registry.enactment? history with
          | none =>
              rw [enacted, stored] at h
              cases h
              exact .contradicted listed stored (enacted ▸ nofun)
          | some computed =>
              rw [enacted, stored] at h
              dsimp only at h
              split at h
              · next differ =>
                  cases h
                  exact .contradicted listed stored
                    (enacted ▸ fun same => differ (Option.some.inj same))
              · next same =>
                  cases h
                  cases Decidable.not_not.mp same
                  exact .confirmed listed stored enacted

-- =================================================================== the check

/-- The first part of the check asks for every fixed fork that was passed,
the one in force from the start aside. -/
theorem checkFixed_eq_ok_iff {activations : Activations} {forks : List (FixedFork ρ)} :
    checkFixed activations now forks = .ok () ↔
      ∀ fork ∈ forks, fork.epoch ≠ .genesis → fork.epoch ≤ now →
        activations[fork.epoch]? = some fork.name := by
  induction forks with
  | nil => simp [checkFixed]
  | cons fork rest ih =>
      unfold checkFixed
      split
      · next hmissing =>
          refine iff_of_false nofun fun h => hmissing.2.2 ?_
          exact h fork List.mem_cons_self hmissing.1 hmissing.2.1
      · next hpresent =>
          rw [ih, List.forall_mem_cons, iff_and_self]
          intro _ hlater hpassed
          by_contra hmissing
          exact hpresent ⟨hlater, hpassed, hmissing⟩

/-- The second part of the check asks every entry to be in the past and
allowed. -/
theorem checkEntries_eq_ok_iff {entries : List (Epoch × String)} :
    registry.checkEntries now entries = .ok () ↔
      ∀ entry ∈ entries, entry.1 ≤ now ∧ registry.allows entry.1 entry.2 = true := by
  induction entries with
  | nil => simp [checkEntries]
  | cons entry rest ih =>
      obtain ⟨epoch, name⟩ := entry
      unfold checkEntries
      rw [List.forall_mem_cons]
      split
      · next hfuture =>
          exact iff_of_false nofun fun h => absurd hfuture (Nat.not_lt.mpr h.1.1)
      · next hpast =>
          split
          · next hallows =>
              rw [ih, and_iff_right ⟨Nat.le_of_not_lt hpast, hallows⟩]
          · next hforeign => exact iff_of_false nofun fun h => hforeign h.1.2

/-- A history passes the check if it has every fixed fork that was passed, and
only entries that are past and allowed. -/
theorem checkHistory_eq_ok {activations : Activations}
    (hfixed : ∀ fork ∈ registry.fixed, fork.epoch ≤ now →
      activations[fork.epoch]? = some fork.name)
    (hentries : ∀ (e : Epoch) name, activations[e]? = some name →
      e ≤ now ∧ registry.allows e name = true) :
    registry.checkHistory activations now = .ok () := by
  unfold checkHistory
  rw [checkFixed_eq_ok_iff.mpr fun fork hfork _ => hfixed fork hfork]
  refine checkEntries_eq_ok_iff.mpr fun entry hentry => hentries entry.1 entry.2 ?_
  exact Std.ExtTreeMap.mem_toList_iff_getElem?_eq_some.mp hentry

-- ================================================================= consistency

/-- A history that a ledger at an epoch may have. -/
structure Consistent (registry : Registry ρ) (history : History) (now : Epoch) : Prop where
  past : ∀ e name, history.activations[e]? = some name → e ≤ now
  allowed : registry.Allowed history
  /-- A candidate that is recorded is so first where the votes enact it. -/
  stored : ∀ candidate epoch, registry.candidate = some candidate →
    recordedAt? history.activations candidate.name = some epoch →
      registry.enactment? history = some epoch
  /-- A candidate that is not recorded is not enacted in the future. -/
  missed : ∀ candidate epoch, registry.candidate = some candidate →
    recordedAt? history.activations candidate.name = none →
      registry.enactment? history = some epoch → epoch ≤ now

/-- What the history of a ledger at an epoch should have: the fixed forks that
were passed, and the candidate where the votes enact it. -/
def Scheduled (registry : Registry ρ) (history : History) (now : Epoch) (e : Epoch)
    (name : String) : Prop :=
  (∃ fork ∈ registry.fixed, fork.epoch ≤ now ∧ fork.epoch = e ∧ fork.name = name)
    ∨ ∃ candidate, registry.candidate = some candidate
        ∧ registry.enactment? history = some e ∧ candidate.name = name

/-- What is scheduled may be on record. -/
theorem allows_of_scheduled {e : Epoch} {name : String}
    (h : registry.Scheduled history now e name) : registry.allows e name = true := by
  rcases h with ⟨fork, hfork, -, rfl, rfl⟩ | ⟨candidate, hcandidate, henacted, rfl⟩
  · exact allows_fixed hfork
  · exact allows_enactment hcandidate henacted

namespace Consistent

/-- The candidate is enacted by now, whether it is recorded or not. -/
theorem enactment_le (consistent : registry.Consistent history now) {candidate : CandidateFork ρ}
    (hcandidate : registry.candidate = some candidate) {epoch : Epoch}
    (h : registry.enactment? history = some epoch) : epoch ≤ now := by
  cases hstored : recordedAt? history.activations candidate.name with
  | none => exact consistent.missed candidate epoch hcandidate hstored h
  | some stored =>
      have heq := consistent.stored candidate stored hcandidate hstored
      obtain rfl : epoch = stored := Option.some.inj (h.symm.trans heq)
      exact consistent.past epoch candidate.name (getElem?_of_recordedAt? hstored)

/-- A fixed fork that is recorded anywhere is recorded at its epoch. -/
theorem getElem?_of_isRecorded (consistent : registry.Consistent history now)
    (sound : registry.Sound) {fork : FixedFork ρ} (hfork : fork ∈ registry.fixed)
    (h : isRecorded history.activations fork.name = true) :
    history.activations[fork.epoch]? = some fork.name := by
  obtain ⟨e, he⟩ := isRecorded_iff.mp h
  rcases allows_iff.mp (consistent.allowed e fork.name he) with
    ⟨other, hother, rfl, hname⟩ | ⟨candidate, hcandidate, -, hname⟩
  · rwa [sound.eq_of_name_eq hother hfork hname] at he
  · exact absurd hname.symm (sound.fixed_names.2 candidate hcandidate fork hfork)

/-- What is missed, together with what is there, is all that should be
recorded. -/
theorem adds_scheduled (consistent : registry.Consistent history now) (sound : registry.Sound)
    (h : history.Adds after fun e name =>
      (∃ fork ∈ registry.fixed,
          (fork.epoch ≤ now ∧ isRecorded history.activations fork.name = false)
            ∧ fork.epoch = e ∧ fork.name = name)
        ∨ ∃ candidate, registry.candidate = some candidate
            ∧ recordedAt? history.activations candidate.name = none
            ∧ registry.enactment? history = some e ∧ candidate.name = name) :
    history.Adds after (registry.Scheduled history now) := by
  refine h.congr fun e name => ?_
  constructor
  · intro h
    rcases h with hold | ⟨fork, hfork, hmissed, he, hname⟩ | ⟨candidate, hc, -, henacted, hname⟩
    · exact .inl hold
    · exact .inr (.inl ⟨fork, hfork, hmissed.1, he, hname⟩)
    · exact .inr (.inr ⟨candidate, hc, henacted, hname⟩)
  · intro h
    rcases h with hold | ⟨fork, hfork, hpassed, rfl, rfl⟩ | ⟨candidate, hc, henacted, rfl⟩
    · exact .inl hold
    · cases hrecorded : isRecorded history.activations fork.name with
      | true => exact .inl (consistent.getElem?_of_isRecorded sound hfork hrecorded)
      | false => exact .inr (.inl ⟨fork, hfork, ⟨hpassed, hrecorded⟩, rfl, rfl⟩)
    · cases hstored : recordedAt? history.activations candidate.name with
      | none => exact .inr (.inr ⟨candidate, hc, hstored, henacted, rfl⟩)
      | some stored =>
          have heq := consistent.stored candidate stored hc hstored
          obtain rfl : e = stored := Option.some.inj (henacted.symm.trans heq)
          exact .inl (getElem?_of_recordedAt? hstored)

/-- A consistent history with everything that should be recorded passes the
check. -/
theorem checkHistory_adds (consistent : registry.Consistent history now)
    (h : history.Adds after (registry.Scheduled history now)) :
    registry.checkHistory after.activations now = .ok () := by
  refine checkHistory_eq_ok (fun fork hfork hpassed => ?_) fun e name hname => ⟨?_, ?_⟩
  · exact (h.recorded _ _).mpr (.inr (.inl ⟨fork, hfork, hpassed, rfl, rfl⟩))
  · rcases (h.recorded e name).mp hname with hold | hnew
    · exact consistent.past e name hold
    · rcases hnew with ⟨fork, -, hpassed, rfl, -⟩ | ⟨candidate, hcandidate, henacted, -⟩
      · exact hpassed
      · exact consistent.enactment_le hcandidate henacted
  · exact consistent.allowed.adds h (fun _ _ => allows_of_scheduled) e name hname

end Consistent

/-- Reconciling a consistent history adds what should be recorded. -/
theorem run_reconcile (sound : registry.Sound) {committed : Option Epoch}
    (consistent : registry.Consistent history (committed.getD .genesis)) :
    ∃ after, (registry.reconcile committed).run history = (.ok (), after)
      ∧ history.Adds after (registry.Scheduled history (committed.getD .genesis)) := by
  have allowed := consistent.allowed
  obtain ⟨middle, hfixed, hadds⟩ := run_recordMissedFixed sound history.activations
    (committed.getD .genesis) (fun _ => id) allowed
  have hmiddle : registry.Allowed middle := allowed.adds hadds (by
    intro _ _ h
    obtain ⟨fork, hfork, -, rfl, rfl⟩ := h
    exact allows_fixed hfork)
  -- what the fixed forks add leaves the votes alone, and so the enactment
  have hvotes := enactment?_congr registry hadds.shares
  obtain ⟨after, hcandidate, hadds'⟩ := run_recordMissedCandidate sound history.activations
    hmiddle (by
      rw [hvotes]
      exact consistent.stored)
  rw [hvotes] at hadds'
  have hall := consistent.adds_scheduled sound (hadds.trans hadds')
  refine ⟨after, ?_, hall⟩
  unfold reconcile
  dsimp only
  rw [run_bind_ok (run_activations history), run_bind_ok hfixed, run_bind_ok hcandidate,
    run_bind_ok (run_activations after), consistent.checkHistory_adds hall]
  rfl

end Registry

end LedgerCore
