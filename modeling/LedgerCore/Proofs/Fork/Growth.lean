/-
The activation history only grows. Whatever startups and boundaries a store
held in memory goes through, and however each of them comes out, an activation
that is on record stays there (`activations_only_grow`).

# What a call may add

A startup that fails has recorded what it came to before it failed, so nothing
can be said of it in terms of its answer. `Completes` is what every phase of
it does, in success and in failure: votes are left alone, and what is added
was missed. It can be chained, since what was missed depends on the votes and
not on the activations.

A boundary adds nothing at all or a single activation
(`activations_processBoundary`), and then it answers the fork that it recorded.
-/
import LedgerCore.Proofs.Fork.Order

namespace LedgerCore

variable {ρ : Type}

namespace Registry

variable {registry : Registry ρ} {history middle after : History} {now : Epoch}

-- ===================================================================== startup

/-- What a ledger that is committed up to an epoch may have missed: a fixed
fork that was passed, at its own epoch, and the candidate, at the epoch that
the recorded votes call for. -/
inductive Missed (registry : Registry ρ) (history : History) (now : Epoch) :
    Epoch → String → Prop
  | fixed {fork : FixedFork ρ} (listed : fork ∈ registry.fixed) (passed : fork.epoch ≤ now) :
      registry.Missed history now fork.epoch fork.name
  | candidate {candidate : CandidateFork ρ} {epoch : Epoch}
      (listed : registry.candidate = some candidate)
      (enacted : (registry.findEnactment.run history).1 = .ok (some epoch)) :
      registry.Missed history now epoch candidate.name

/-- What was missed depends on the votes only. -/
theorem Missed.congr (h : after.shares = history.shares) {e : Epoch} {name : String}
    (missed : registry.Missed after now e name) : registry.Missed history now e name := by
  cases missed with
  | fixed listed passed => exact .fixed listed passed
  | candidate listed enacted =>
      refine .candidate listed ?_
      rw [run_findEnactment] at enacted ⊢
      rwa [enactment?_congr registry h] at enacted

/-- One history is another with some of what was missed added, and nothing
else changed. -/
structure Completes (registry : Registry ρ) (now : Epoch) (history after : History) : Prop
    extends history.Extends after where
  only : ∀ (e : Epoch) name, after.activations[e]? = some name →
    history.activations[e]? = some name ∨ registry.Missed history now e name

namespace Completes

theorem refl (registry : Registry ρ) (now : Epoch) (history : History) :
    registry.Completes now history history :=
  ⟨.refl history, fun _ _ => .inl⟩

theorem trans (h : registry.Completes now history middle)
    (h' : registry.Completes now middle after) : registry.Completes now history after := by
  refine ⟨h.toExtends.trans h'.toExtends, fun e name hname => ?_⟩
  rcases h'.only e name hname with hmiddle | missed
  · exact h.only e name hmiddle
  · exact .inr (missed.congr h.shares)

end Completes

/-- Recording what was missed completes the history, or is refused and leaves
it as it is. -/
theorem completes_of_records {epoch : Epoch} {name : String}
    (missed : registry.Missed history now epoch name) {outcome : Except ForkError Unit}
    (records : Records history epoch name outcome after) :
    registry.Completes now history after := by
  cases records with
  | refused _ => exact .refl registry now history
  | recorded hrecord =>
      refine ⟨(History.extends_of_recordActivation hrecord).1, fun e other hother => ?_⟩
      rcases History.of_recordActivation hrecord with ⟨-, rfl⟩ | ⟨-, rfl⟩
      · rw [History.activations_activate] at hother
        split at hother
        · next here =>
            cases here
            cases hother
            exact .inr missed
        · exact .inl hother
      · exact .inl hother

/-- Recording fixed forks that were missed adds some of them, also when it
stops in the middle. -/
theorem completes_recordMissedFixed {recorded : Activations} {forks : List (FixedFork ρ)}
    (listed : ∀ fork ∈ forks, fork ∈ registry.fixed) {outcome : Except ForkError Unit}
    (h : (recordMissedFixed recorded now forks).run history = (outcome, after)) :
    registry.Completes now history after := by
  induction forks generalizing history with
  | nil =>
      cases h
      exact .refl registry now _
  | cons fork rest ih =>
      have hrest : ∀ other ∈ rest, other ∈ registry.fixed :=
        fun other hother => listed other (List.mem_cons_of_mem _ hother)
      unfold recordMissedFixed at h
      split at h
      · next unrecorded =>
          have passed : fork.epoch ≤ now := by
            simpa using (Bool.and_eq_true_iff.mp unrecorded).1
          have missed : registry.Missed history now fork.epoch fork.name :=
            .fixed (listed fork List.mem_cons_self) passed
          obtain ⟨cause, hrun⟩ | ⟨⟨⟩, middle, hrun, hnext⟩ := run_bind_cases h
          · exact completes_of_records missed (records_of_run hrun)
          · exact (completes_of_records missed (records_of_run hrun)).trans (ih hrest hnext)
      · exact ih hrest h

/-- Recording a candidate that was missed adds its enactment or nothing. -/
theorem completes_recordMissedCandidate {recorded : Activations} {outcome : Except ForkError Unit}
    (h : (registry.recordMissedCandidate recorded).run history = (outcome, after)) :
    registry.Completes now history after := by
  cases recordsCandidate_of_run h with
  | missed listed unstored enacted records =>
      refine completes_of_records (.candidate listed ?_) records
      rw [run_findEnactment, enacted]
  | _ => exact .refl registry now history

/-- Startup completes the history, also if it fails. -/
theorem completes_reconcile (registry : Registry ρ) (committed : Option Epoch)
    (history : History) : registry.Completes (committed.getD .genesis) history
      ((registry.reconcile committed).run history).2 := by
  rcases h : (registry.reconcile committed).run history with ⟨outcome, after⟩
  show registry.Completes (committed.getD .genesis) history after
  unfold reconcile at h
  rw [run_bind_ok (run_activations history)] at h
  obtain ⟨cause, hfixed⟩ | ⟨⟨⟩, middle, hfixed, hrest⟩ := run_bind_cases h
  · exact completes_recordMissedFixed (fun _ => id) hfixed
  have filled := completes_recordMissedFixed (fun _ => id) hfixed
  obtain ⟨cause, hcandidate⟩ | ⟨⟨⟩, last, hcandidate, hcheck⟩ := run_bind_cases hrest
  · exact filled.trans (completes_recordMissedCandidate hcandidate)
  have completed := filled.trans (completes_recordMissedCandidate hcandidate)
  rw [run_bind_ok (run_activations last)] at hcheck
  split at hcheck
  · cases hcheck
    exact completed
  · cases hcheck
    exact completed

end Registry

-- ================================================================== many calls

/-- What a ledger asks of its registry: to reconcile the history at startup, or
to process a boundary under the fork that is named. -/
inductive RegistryCall where
  | startup (committed : Option Epoch)
  | boundary (current : String) (boundary : EpochBoundary)

namespace Registry

/-- The history after a call, however the call comes out. -/
def after (registry : Registry ρ) (history : History) : RegistryCall → History
  | .startup committed => ((registry.reconcile committed).run history).2
  | .boundary current boundary => ((registry.processBoundary current boundary).run history).2

/-- The history after calls made one by one. -/
def afterAll (registry : Registry ρ) (history : History) (calls : List RegistryCall) : History :=
  calls.foldl registry.after history

/-- What a call may do to a history besides keeping what is recorded. -/
def Effect (registry : Registry ρ) (earlier later : History) : RegistryCall → Prop
  | .startup committed =>
      later.shares = earlier.shares ∧ ∀ (e : Epoch) name, later.activations[e]? = some name →
        earlier.activations[e]? = some name
          ∨ registry.Missed earlier (committed.getD .genesis) e name
  | .boundary current boundary =>
      later.activations = earlier.activations ∨ ∃ fork,
        ((registry.processBoundary current boundary).run earlier).1 = .ok (some fork)
          ∧ (registry.link? current).bind registry.target = some fork
          ∧ earlier.activations[boundary.epoch.next]? = none
          ∧ later.activations = earlier.activations.insert boundary.epoch.next fork.name

variable {registry : Registry ρ}

/-- A call keeps what is recorded. -/
theorem keeps_after (registry : Registry ρ) (history : History) (call : RegistryCall) {e : Epoch}
    {name : String} (there : history.activations[e]? = some name) :
    (registry.after history call).activations[e]? = some name := by
  cases call with
  | startup committed => exact (registry.completes_reconcile committed history).kept e name there
  | boundary current boundary => exact keeps_processBoundary rfl there

/-- Nothing on record is ever taken off or overwritten. -/
theorem keeps_afterAll (registry : Registry ρ) (history : History) (calls : List RegistryCall)
    {e : Epoch} {name : String} (there : history.activations[e]? = some name) :
    (registry.afterAll history calls).activations[e]? = some name := by
  induction calls generalizing history with
  | nil => exact there
  | cons call rest ih => exact ih _ (registry.keeps_after history call there)

/-- A call does no more to the record than it may. -/
theorem effect_after (registry : Registry ρ) (history : History) (call : RegistryCall) :
    registry.Effect history (registry.after history call) call := by
  cases call with
  | startup committed =>
      have completes := registry.completes_reconcile committed history
      exact ⟨completes.shares, completes.only⟩
  | boundary current boundary => exact activations_processBoundary rfl

/-- Activations are only ever added. Whatever calls are made on a store held
in memory, and whether they succeed or fail: what is recorded before a call is
recorded after it and after all that follow. A startup adds fixed forks that
were passed, at their own epochs, and the candidate where the votes call for
it, and leaves the votes as they are; a boundary adds at most the fork that the
current one is linked to, for the epoch behind it. -/
theorem activations_only_grow (registry : Registry ρ) (history : History)
    (before : List RegistryCall) (call : RegistryCall) (behind : List RegistryCall) :
    let earlier := registry.afterAll history before
    let later := registry.afterAll history (before ++ [call])
    (∀ (e : Epoch) name, earlier.activations[e]? = some name → later.activations[e]? = some name)
      ∧ registry.Effect earlier later call
      ∧ ∀ (e : Epoch) name, later.activations[e]? = some name →
          (registry.afterAll history (before ++ call :: behind)).activations[e]? = some name := by
  intro earlier later
  have hlater : later = registry.after earlier call := by
    simp only [later, earlier, afterAll, List.foldl_append, List.foldl_cons, List.foldl_nil]
  have hend : registry.afterAll history (before ++ call :: behind)
      = registry.afterAll later behind := by
    simp only [later, afterAll, List.foldl_append, List.foldl_cons, List.foldl_nil]
  rw [hend, hlater]
  refine ⟨fun e name => registry.keeps_after earlier call, registry.effect_after earlier call, ?_⟩
  exact fun e name => registry.keeps_afterAll _ behind

end Registry

end LedgerCore
