/-
Startup that is tried again. A startup that fails leaves what it had recorded up
to then, so the next one begins with another history. It comes out the same and
changes nothing (`reconcile_again`), and so does every one after it
(`startup_settled`): a history that was refused is not accepted later, and one
that was accepted is not refused.

# The phases a second time

Recording the fixed forks ends at the first one that is refused. The forks
before it are on record by then and are passed over, and that fork itself is
still not, as no other has its name; it is refused again by the entry that
stands at its epoch (`run_recordMissedFixed_again`). If none was refused, all
of them are on record.

Nothing that the first phase adds has the candidate's name, so the second phase
decides on the same votes and the same entries as before. It changes them only
by recording the candidate, at the epoch where it then expects it
(`run_recordMissedCandidate_again`). The check at the end only reads.
-/
import LedgerCore.Proofs.Fork.Growth

namespace LedgerCore

variable {ρ : Type}

namespace Registry

variable {registry : Registry ρ} {history middle after : History} {now : Epoch}

-- ============================================================ entries of a name

/-- Two histories record the fork of that name at the same epochs. -/
def AgreeOn (activations other : Activations) (name : String) : Prop :=
  ∀ e : Epoch, other[e]? = some name ↔ activations[e]? = some name

theorem AgreeOn.refl (activations : Activations) (name : String) :
    AgreeOn activations activations name := fun _ => Iff.rfl

theorem AgreeOn.trans {activations other last : Activations} {name : String}
    (h : AgreeOn activations other name) (h' : AgreeOn other last name) :
    AgreeOn activations last name := fun e => (h' e).trans (h e)

/-- Records that agree on a name both have it, or neither. -/
theorem isRecorded_congr {activations other : Activations} {name : String}
    (h : AgreeOn activations other name) :
    isRecorded other name = isRecorded activations name := by
  rw [Bool.eq_iff_iff, isRecorded_iff, isRecorded_iff]
  exact exists_congr h

/-- A name stays on record where no activation is lost. -/
theorem isRecorded_mono {activations other : Activations} {name : String}
    (kept : ∀ e : Epoch, activations[e]? = some name → other[e]? = some name)
    (h : isRecorded activations name = true) : isRecorded other name = true := by
  rw [isRecorded_iff] at h ⊢
  exact h.imp kept

/-- A name is found at the first epoch that has it. -/
theorem recordedAt?_eq_some_iff {activations : Activations} {name : String} {epoch : Epoch} :
    recordedAt? activations name = some epoch ↔ FirstRecorded activations name epoch := by
  refine ⟨firstRecorded_of_recordedAt?, fun first => ?_⟩
  cases hstored : recordedAt? activations name with
  | none => exact absurd first.1 (recordedAt?_eq_none_iff.mp hstored epoch)
  | some stored => rw [(firstRecorded_of_recordedAt? hstored).unique first]

/-- Records that agree on a name have it first at the same epoch. -/
theorem recordedAt?_congr {activations other : Activations} {name : String}
    (h : AgreeOn activations other name) :
    recordedAt? other name = recordedAt? activations name := by
  refine Option.ext fun epoch => ?_
  rw [recordedAt?_eq_some_iff, recordedAt?_eq_some_iff]
  exact and_congr (h epoch) (forall_congr' fun e => imp_congr_left (h e))

/-- An activation that is recorded, or refused, leaves the entries of other
names. -/
theorem agreeOn_recordActivation {epoch : Epoch} {name other : String} (hne : name ≠ other)
    {outcome : Except ForkError Unit}
    (h : (onStore (ActivationStore.recordActivation epoch name)).run history = (outcome, after)) :
    AgreeOn history.activations after.activations other := by
  cases records_of_run h with
  | refused _ => exact .refl _ _
  | recorded hrecord =>
      rcases History.of_recordActivation hrecord with ⟨hfree, rfl⟩ | ⟨-, rfl⟩
      · intro e
        rw [History.activations_activate]
        split
        · next here =>
            rw [← here, hfree]
            exact iff_of_false (fun heq => hne (Option.some.inj heq)) nofun
        · rfl
      · exact .refl _ _

/-- An activation that is refused leaves the history as it is. -/
theorem eq_of_refused {epoch : Epoch} {name : String} {cause : ForkError}
    (h : (onStore (ActivationStore.recordActivation epoch name)).run history
      = (.error cause, after)) : after = history := by
  cases records_of_run h with
  | refused _ => rfl

-- ============================================================== the fixed forks

section Fixed

variable {recorded : Activations} {fork : FixedFork ρ} {forks before behind : List (FixedFork ρ)}

/-- Forks that are ahead or on record are passed over. -/
theorem recordMissedFixed_append
    (h : ∀ fork ∈ before, fork.epoch ≤ now → isRecorded recorded fork.name = true) :
    (recordMissedFixed recorded now (before ++ behind) : Action History Unit)
      = recordMissedFixed recorded now behind := by
  induction before with
  | nil => rfl
  | cons fork rest ih =>
      obtain ⟨hfork, hrest⟩ := List.forall_mem_cons.mp h
      rw [List.cons_append, recordMissedFixed, if_neg]
      · exact ih hrest
      · rw [Bool.and_eq_true, decide_eq_true_eq, Bool.not_eq_true', Bool.eq_false_iff]
        exact fun missed => missed.2 (hfork missed.1)

/-- Where all that were passed are on record, nothing is recorded. -/
theorem run_recordMissedFixed_of_recorded
    (h : ∀ fork ∈ forks, fork.epoch ≤ now → isRecorded recorded fork.name = true) :
    (recordMissedFixed recorded now forks).run history = (.ok (), history) := by
  rw [← List.append_nil forks, recordMissedFixed_append h]
  rfl

/-- A history in which some forks have been made up for: those that were passed
are on record, and nothing is added but forks of their names. -/
structure Filled (now : Epoch) (before : List (FixedFork ρ)) (history after : History) : Prop
    extends history.Extends after where
  recorded : ∀ fork ∈ before, fork.epoch ≤ now → isRecorded after.activations fork.name = true
  foreign : ∀ name, (∀ fork ∈ before, fork.name ≠ name) →
    AgreeOn history.activations after.activations name

namespace Filled

theorem nil (history : History) : Filled now ([] : List (FixedFork ρ)) history history :=
  ⟨.refl history, nofun, fun _ _ => .refl _ _⟩

/-- A fork that is ahead or on record needs nothing. -/
theorem skip (h : Filled now before history after)
    (there : fork.epoch ≤ now → isRecorded history.activations fork.name = true) :
    Filled now (fork :: before) history after := by
  refine ⟨h.toExtends, List.forall_mem_cons.mpr ⟨fun passed => ?_, h.recorded⟩,
    fun name hname => h.foreign name (List.forall_mem_cons.mp hname).2⟩
  exact isRecorded_mono (fun e => h.kept e _) (there passed)

/-- A fork that is recorded first. -/
theorem record (h : Filled now before middle after)
    (hrun : (onStore (ActivationStore.recordActivation fork.epoch fork.name)).run history
      = (.ok (), middle)) : Filled now (fork :: before) history after := by
  obtain ⟨grown, hthere⟩ := History.extends_of_recordActivation (recordActivation_of_run hrun)
  refine ⟨grown.trans h.toExtends, List.forall_mem_cons.mpr ⟨fun _ => ?_, h.recorded⟩,
    fun name hname => ?_⟩
  · exact isRecorded_iff.mpr ⟨fork.epoch, h.kept _ _ hthere⟩
  · obtain ⟨hfork, hbefore⟩ := List.forall_mem_cons.mp hname
    exact (agreeOn_recordActivation hfork hrun).trans (h.foreign name hbefore)

end Filled

/-- What ends the recording of missed forks: there is no other, or the next one
is missed as well, and is refused. -/
inductive Stops (recorded : Activations) (now : Epoch) (after : History) :
    List (FixedFork ρ) → Except ForkError Unit → Prop
  | done : Stops recorded now after [] (.ok ())
  | refused {fork : FixedFork ρ} {behind : List (FixedFork ρ)} {cause : ForkError}
      (passed : fork.epoch ≤ now) (unrecorded : isRecorded recorded fork.name = false)
      (refusal : (onStore (ActivationStore.recordActivation fork.epoch fork.name)).run after
        = (.error cause, after)) :
      Stops recorded now after (fork :: behind) (.error cause)

/-- Recording the missed forks makes up for some of them, in order, and stops at
the end or at one that is refused. -/
theorem filled_of_recordMissedFixed
    (kept : ∀ (e : Epoch) name, recorded[e]? = some name → history.activations[e]? = some name)
    {outcome : Except ForkError Unit}
    (h : (recordMissedFixed recorded now forks).run history = (outcome, after)) :
    ∃ before behind, forks = before ++ behind ∧ Filled now before history after
      ∧ Stops recorded now after behind outcome := by
  induction forks generalizing history with
  | nil =>
      cases h
      exact ⟨[], [], rfl, .nil _, .done⟩
  | cons fork rest ih =>
      unfold recordMissedFixed at h
      split at h
      · -- recorded now, or refused, which ends the phase
        next missed =>
          rw [Bool.and_eq_true, decide_eq_true_eq, Bool.not_eq_true'] at missed
          obtain ⟨cause, hrun⟩ | ⟨⟨⟩, middle, hrun, hnext⟩ := run_bind_cases h
          · rw [run_bind_error hrun] at h
            cases h
            obtain rfl := eq_of_refused hrun
            exact ⟨[], fork :: rest, rfl, .nil _, .refused missed.1 missed.2 hrun⟩
          · have grown :=
              (History.extends_of_recordActivation (recordActivation_of_run hrun)).1
            obtain ⟨before, behind, rfl, hfilled, hstops⟩ :=
              ih (fun e name hname => grown.kept e name (kept e name hname)) hnext
            exact ⟨fork :: before, behind, rfl, hfilled.record hrun, hstops⟩
      · -- ahead, or on record already
        next skipped =>
          rw [Bool.and_eq_true, decide_eq_true_eq, Bool.not_eq_true', not_and,
            Bool.not_eq_false] at skipped
          obtain ⟨before, behind, rfl, hfilled, hstops⟩ := ih kept h
          refine ⟨fork :: before, behind, rfl, hfilled.skip fun passed => ?_, hstops⟩
          exact isRecorded_mono (fun e => kept e _) (skipped passed)

/-- Once none was refused, all that were passed are on record. -/
theorem filled_of_recordMissedFixed_ok
    (h : (recordMissedFixed history.activations now forks).run history = (.ok (), after)) :
    Filled now forks history after := by
  obtain ⟨before, behind, rfl, hfilled, hstops⟩ := filled_of_recordMissedFixed (fun _ _ => id) h
  cases hstops
  rwa [List.append_nil]

/-- What was refused is refused again, on the history that is left. -/
theorem run_recordMissedFixed_again {cause : ForkError}
    (distinct : (forks.map FixedFork.name).Nodup)
    (h : (recordMissedFixed history.activations now forks).run history = (.error cause, after)) :
    (recordMissedFixed after.activations now forks).run after = (.error cause, after) := by
  obtain ⟨before, behind, rfl, hfilled, hstops⟩ := filled_of_recordMissedFixed (fun _ _ => id) h
  cases hstops with
  | @refused fork behind cause passed unrecorded refusal =>
      -- no fork ahead of it has its name, so it is still not on record
      rw [List.map_append, List.map_cons] at distinct
      have foreign : ∀ other ∈ before, other.name ≠ fork.name := fun other hother =>
        (List.nodup_append.mp distinct).2.2 _ (List.mem_map_of_mem hother) _ List.mem_cons_self
      rw [← isRecorded_congr (hfilled.foreign fork.name foreign)] at unrecorded
      rw [recordMissedFixed_append hfilled.recorded, recordMissedFixed, if_pos]
      · exact run_bind_error refusal
      · rw [Bool.and_eq_true, decide_eq_true_eq, Bool.not_eq_true']
        exact ⟨passed, unrecorded⟩

end Fixed

-- ================================================================ the candidate

section Candidate

variable {recorded : Activations} {candidate : CandidateFork ρ} {epoch : Epoch}
  {outcome : Except ForkError Unit}

/-- A candidate that is on record where the votes enact it is left there. -/
theorem run_recordMissedCandidate_of_recorded (listed : registry.candidate = some candidate)
    (stored : recordedAt? recorded candidate.name = some epoch)
    (enacted : registry.enactment? history = some epoch) :
    (registry.recordMissedCandidate recorded).run history = (.ok (), history) := by
  unfold recordMissedCandidate
  rw [listed]
  dsimp only
  rw [run_bind_ok (registry.run_findEnactment history), enacted, stored]
  dsimp only
  rw [if_neg fun differ => differ rfl]
  rfl

/-- The second phase depends on the entries of the candidate only. -/
theorem recordMissedCandidate_congr {activations : Activations}
    (agree : ∀ candidate, registry.candidate = some candidate →
      AgreeOn recorded activations candidate.name) :
    (registry.recordMissedCandidate activations : Action History Unit)
      = registry.recordMissedCandidate recorded := by
  unfold recordMissedCandidate
  cases listed : registry.candidate with
  | none => rfl
  | some candidate =>
      dsimp only
      rw [recordedAt?_congr (agree candidate listed)]

/-- On the history that it leaves, the second phase comes out the same and
changes nothing. -/
theorem run_recordMissedCandidate_again
    (agree : ∀ candidate, registry.candidate = some candidate →
      AgreeOn recorded history.activations candidate.name)
    (h : (registry.recordMissedCandidate recorded).run history = (outcome, after)) :
    (registry.recordMissedCandidate after.activations).run after = (outcome, after) := by
  have unmoved : after = history →
      (registry.recordMissedCandidate after.activations).run after = (outcome, after) := by
    rintro rfl
    rw [recordMissedCandidate_congr agree]
    exact h
  cases recordsCandidate_of_run h with
  | @missed candidate epoch _ _ listed unstored enacted records =>
      cases records with
      | refused hrefused => exact unmoved rfl
      | recorded hrecord =>
          obtain ⟨grown, hthere⟩ := History.extends_of_recordActivation hrecord
          rw [← recordedAt?_congr (agree candidate listed), recordedAt?_eq_none_iff] at unstored
          have enactedAfter : registry.enactment? after = some epoch := by
            rw [enactment?_congr registry grown.shares]
            exact enacted
          -- its only entry is the one that was recorded
          have stored : recordedAt? after.activations candidate.name = some epoch := by
            refine recordedAt?_eq_some_iff.mpr ⟨hthere, fun e he => ?_⟩
            rcases History.of_recordActivation hrecord with ⟨-, rfl⟩ | ⟨hold, -⟩
            · rw [History.activations_activate] at he
              split at he
              · next here => exact Nat.le_of_eq (congrArg Epoch.toNat here)
              · exact absurd he (unstored e)
            · exact absurd hold (unstored epoch)
          exact run_recordMissedCandidate_of_recorded listed stored enactedAfter
  | _ => exact unmoved rfl

end Candidate

-- ================================================================ startup again

/-- Startup on the history that it left comes out the same and changes
nothing. -/
theorem reconcile_again (sound : registry.Sound) {committed : Option Epoch}
    {outcome : Except ForkError Unit}
    (h : (registry.reconcile committed).run history = (outcome, after)) :
    (registry.reconcile committed).run after = (outcome, after) := by
  have distinct : (registry.fixed.map FixedFork.name).Nodup := sound.fixed_names.1
  unfold reconcile at h ⊢
  rw [run_bind_ok (run_activations history)] at h
  rw [run_bind_ok (run_activations after)]
  obtain ⟨cause, hfixed⟩ | ⟨⟨⟩, middle, hfixed, hrest⟩ := run_bind_cases h
  · rw [run_bind_error hfixed] at h
    cases h
    exact run_bind_error (run_recordMissedFixed_again distinct hfixed)
  have filled := filled_of_recordMissedFixed_ok hfixed
  have agree : ∀ candidate, registry.candidate = some candidate →
      AgreeOn history.activations middle.activations candidate.name := fun candidate listed =>
    filled.foreign candidate.name (sound.fixed_names.2 candidate listed)
  rcases hcandidate : (registry.recordMissedCandidate history.activations).run middle
    with ⟨answer, last⟩
  have again := run_recordMissedCandidate_again agree hcandidate
  -- all that was passed is on record, also after the second phase
  have grown : registry.Completes (committed.getD .genesis) middle last :=
    completes_recordMissedCandidate hcandidate
  have quiet : (recordMissedFixed last.activations (committed.getD .genesis) registry.fixed).run
      last = (.ok (), last) := by
    refine run_recordMissedFixed_of_recorded fun fork hfork passed => ?_
    exact isRecorded_mono (fun e => grown.kept e _) (filled.recorded fork hfork passed)
  cases answer with
  | error cause =>
      rw [run_bind_error hcandidate] at hrest
      cases hrest
      rw [run_bind_ok quiet]
      exact run_bind_error again
  | ok _ =>
      rw [run_bind_ok hcandidate, run_bind_ok (run_activations last)] at hrest
      have unchanged : after = last := by
        split at hrest
        · cases hrest
          rfl
        · cases hrest
          rfl
      subst unchanged
      rw [run_bind_ok quiet, run_bind_ok again, run_bind_ok (run_activations after)]
      exact hrest

/-- Startup settles the matter. Whatever the history is like, and whether it is
accepted or refused, each later startup for the same epoch gives the very answer
of the first and changes nothing any more. -/
theorem startup_settled {forks : List (Fork ρ)} (created : create forks = .ok registry)
    (history : History) (committed : Option Epoch) :
    ∃ outcome after, (registry.reconcile committed).run history = (outcome, after)
      ∧ (registry.reconcile committed).run after = (outcome, after)
      ∧ ∀ retries, registry.afterAll after (List.replicate retries (.startup committed))
          = after := by
  rcases h : (registry.reconcile committed).run history with ⟨outcome, after⟩
  have again := reconcile_again (sound_of_create created) h
  refine ⟨outcome, after, rfl, again, fun retries => ?_⟩
  induction retries with
  | zero => rfl
  | succ retries ih =>
      rw [List.replicate_succ, afterAll, List.foldl_cons]
      show registry.afterAll ((registry.reconcile committed).run after).2 _ = after
      rw [again]
      exact ih

/-- A history that has the candidate although nobody voted for it. -/
def strayCandidate : History := History.empty.activate (.clamp 4) "second"

/-- It is refused for good, although the first startup adds the fixed fork that
it lacks. -/
theorem stray_candidate_refused_again :
    create [.fixed ⟨"first", .genesis, ()⟩, .candidate halfForTwo] = .ok fixedAndCandidate
      ∧ strayCandidate.activations[(.genesis : Epoch)]? = none
      ∧ ∃ after, after.activations[(.genesis : Epoch)]? = some "first"
        ∧ (fixedAndCandidate.reconcile (some (.clamp 4))).run strayCandidate
            = (.error (.consistency (.candidateWithoutVotes "second" (.clamp 4))), after)
        ∧ (fixedAndCandidate.reconcile (some (.clamp 4))).run after
            = (.error (.consistency (.candidateWithoutVotes "second" (.clamp 4))), after)
        ∧ ∀ retries, fixedAndCandidate.afterAll after
            (List.replicate retries (.startup (some (.clamp 4)))) = after := by
  have created : create [.fixed ⟨"first", .genesis, ()⟩, .candidate halfForTwo]
      = .ok fixedAndCandidate := rfl
  have refused : ((fixedAndCandidate.reconcile (some (.clamp 4))).run strayCandidate).1
      = .error (.consistency (.candidateWithoutVotes "second" (.clamp 4))) := by decide +kernel
  have added : ((fixedAndCandidate.reconcile (some (.clamp 4))).run
      strayCandidate).2.activations[(.genesis : Epoch)]? = some "first" := by decide +kernel
  obtain ⟨outcome, after, hfirst, hsecond, hall⟩ :=
    startup_settled created strayCandidate (some (.clamp 4))
  rw [hfirst] at refused added
  obtain rfl := refused
  exact ⟨created, by decide +kernel, after, added, hfirst, hsecond, hall⟩

end Registry

end LedgerCore
