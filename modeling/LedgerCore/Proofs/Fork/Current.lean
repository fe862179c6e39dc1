/-
What the schedule and the votes call for, epoch by epoch. `Current` is the
fork they call for at an epoch: the candidate once it was enacted, and the last
fixed fork that was passed until then.

From one epoch to the next, the votes of one boundary arrive. They leave every
earlier enactment where it is (`enactment?_kept`), and can bring one at the
next epoch only (`enactment?_next`). So what becomes active there is a fixed
fork, the candidate, or nothing (`Opens`), and this accounts for all that is
new (`Opens.scheduled_iff`, `Opens.current`).
-/
import LedgerCore.Proofs.Fork.Reconcile

namespace LedgerCore

variable {ρ : Type}

namespace Epoch

theorem lt_next {e : Epoch} (h : e < last) : e < e.next := by
  rw [lt_def, toNat_next_of_lt h]
  exact Nat.lt_succ_self _

theorem le_next_iff {e now : Epoch} (h : now < last) : e ≤ now.next ↔ e ≤ now ∨ e = now.next := by
  rw [Epoch.ext_iff, le_def, le_def, toNat_next_of_lt h]
  omega

theorem next_le_iff {e now : Epoch} (h : now < last) : now.next ≤ e ↔ now < e := by
  rw [le_def, lt_def, toNat_next_of_lt h]
  exact Nat.succ_le_iff

/-- An epoch whose next one is not the last is not the last either. -/
theorem lt_last_of_next {e : Epoch} (h : e.next < last) : e < last := by
  refine Nat.lt_of_le_of_ne (Nat.le_of_lt_succ e.lt_limit) fun heq => ?_
  rw [show e = last from Epoch.ext heq, next_last] at h
  exact Nat.lt_irrefl _ h

end Epoch

-- ====================================================================== votes

/-- The results a boundary carries are for the epoch that follows it, and at
most one for each candidate. -/
structure EpochBoundary.Tallied (boundary : EpochBoundary) : Prop where
  stamped : ∀ result ∈ boundary.results, result.epoch = boundary.epoch.next
  distinct : (boundary.results.map VotingResult.candidate).Nodup

namespace History

variable {history : History}

/-- No results are recorded for epochs after this one. -/
def Voted (history : History) (now : Epoch) : Prop :=
  ∀ id e, now < e → history.share? id e = none

/-- A result for one candidate is nothing to the shares of another. -/
theorem share?_recordVote_of_ne (history : History) {result : VotingResult} {id : CandidateId}
    (h : result.candidate ≠ id) (e : Epoch) :
    (history.recordVote result).share? id e = history.share? id e := by
  rw [share?, shares_recordVote, if_neg fun heq => h (congrArg VoteKey.candidate heq)]
  rfl

/-- Recording results for one epoch, at most one for each candidate, changes
the shares of that epoch. -/
theorem share?_recordVotes {results : List VotingResult} {epoch : Epoch}
    (stamped : ∀ result ∈ results, result.epoch = epoch)
    (distinct : (results.map VotingResult.candidate).Nodup) (history : History)
    (id : CandidateId) (e : Epoch) :
    (history.recordVotes results).share? id e
      = if e = epoch then
          ((results.find? fun result => result.candidate == id).map VotingResult.stake).or
            (history.share? id e)
        else history.share? id e := by
  induction results generalizing history with
  | nil => exact (ite_self _).symm
  | cons result rest ih =>
      obtain ⟨hnew, hrest⟩ := List.nodup_cons.mp distinct
      have hstamp := stamped result List.mem_cons_self
      show ((history.recordVote result).recordVotes rest).share? id e = _
      rw [ih (fun other hother => stamped other (List.mem_cons_of_mem _ hother)) hrest]
      by_cases hid : result.candidate = id
      · subst hid
        have hnone : (rest.find? fun other => other.candidate == result.candidate) = none := by
          refine List.find?_eq_none.mpr fun other hother heq => hnew ?_
          rw [← beq_iff_eq.mp heq]
          exact List.mem_map_of_mem hother
        rw [hnone, List.find?_cons, beq_self_eq_true, share?_recordVote, hstamp]
        split <;> rfl
      · rw [List.find?_cons_of_neg (by simpa using hid), share?_recordVote_of_ne _ hid]

variable {boundary : EpochBoundary}

/-- Up to its epoch, a boundary leaves the shares as they are. -/
theorem share?_tallied (tallied : boundary.Tallied) (below : boundary.epoch < .last)
    (id : CandidateId) {e : Epoch} (h : e ≤ boundary.epoch) :
    (history.recordVotes boundary.results).share? id e = history.share? id e := by
  rw [share?_recordVotes tallied.stamped tallied.distinct, if_neg]
  intro heq
  subst heq
  exact Nat.not_lt.mpr h (Epoch.lt_next below)

/-- With the results of a boundary, results are recorded up to the epoch that
follows. -/
theorem Voted.recordVotes (voted : history.Voted boundary.epoch) (tallied : boundary.Tallied)
    (below : boundary.epoch < .last) :
    (history.recordVotes boundary.results).Voted boundary.epoch.next := by
  intro id e hlt
  rw [share?_recordVotes tallied.stamped tallied.distinct, if_neg]
  · exact voted id e (Nat.lt_trans (Epoch.lt_next below) hlt)
  · intro heq
    subst heq
    exact Nat.lt_irrefl _ hlt

end History

namespace Registry

variable {registry : Registry ρ} {history after : History} {candidate : CandidateFork ρ}
  {now : Epoch}

-- ================================================================== enactments

/-- The candidate is not due after the last epoch with results. -/
theorem not_dueAt_of_voted (voted : history.Voted now) {e : Epoch} (h : now < e) :
    ¬ candidate.DueAt history e := by
  intro h
  obtain ⟨-, ⟨stake, hshare⟩, -⟩ := h
  rw [voted candidate.id e h] at hshare
  cases hshare

/-- Where all results have come in, the enactment of a candidate is the first
epoch it is due at. -/
theorem enactment?_iff_of_voted (hcandidate : registry.candidate = some candidate)
    (voted : history.Voted now) (below : now < .last) {epoch : Epoch} :
    registry.enactment? history = some epoch ↔
      candidate.DueAt history epoch ∧ ∀ e < epoch, ¬ candidate.DueAt history e :=
  enactment?_eq_some_iff hcandidate (.inr (voted candidate.id .last below))

/-- The enactment is at an epoch with results. -/
theorem enactment?_le_of_voted (voted : history.Voted now) (below : now < .last) {epoch : Epoch}
    (h : registry.enactment? history = some epoch) : epoch ≤ now := by
  obtain ⟨candidate, hcandidate⟩ := exists_candidate_of_enactment? h
  refine Nat.le_of_not_lt fun hlt => ?_
  exact not_dueAt_of_voted voted hlt ((enactment?_iff_of_voted hcandidate voted below).mp h).1

section Votes

variable (hcandidate : registry.candidate = some candidate) (voted : history.Voted now)
  (voted' : after.Voted now.next) (below : now.next < .last)
  (same : ∀ e ≤ now, after.share? candidate.id e = history.share? candidate.id e)
include hcandidate voted voted' below same

/-- An enactment stays where it is as later votes arrive. -/
theorem enactment?_kept {epoch : Epoch} (h : registry.enactment? history = some epoch) :
    registry.enactment? after = some epoch := by
  have hle := enactment?_le_of_voted voted (Epoch.lt_last_of_next below) h
  rw [enactment?_iff_of_voted hcandidate voted (Epoch.lt_last_of_next below)] at h
  rw [enactment?_iff_of_voted hcandidate voted' below]
  have due_iff : ∀ e ≤ epoch, candidate.DueAt after e ↔ candidate.DueAt history e :=
    fun e he => CandidateFork.dueAt_congr fun e' he' =>
      same e' (Nat.le_trans he' (Nat.le_trans he hle))
  refine ⟨(due_iff epoch (Nat.le_refl _)).mpr h.1, fun e hlt due => h.2 e hlt ?_⟩
  exact (due_iff e (Nat.le_of_lt hlt)).mp due

/-- Where there was no enactment, later votes bring one at the next epoch, if
the candidate is due there. -/
theorem enactment?_next (h : registry.enactment? history = none) {epoch : Epoch} :
    registry.enactment? after = some epoch ↔
      epoch = now.next ∧ candidate.DueAt after now.next := by
  have below' := Epoch.lt_last_of_next below
  have never := (enactment?_eq_none_iff hcandidate (.inr (voted candidate.id .last below'))).mp h
  have hnever : ∀ e ≤ now, ¬ candidate.DueAt after e := by
    intro e he due
    exact never e ((CandidateFork.dueAt_congr fun e' he' => same e' (Nat.le_trans he' he)).mp due)
  constructor
  · intro hepoch
    have hdue := ((enactment?_iff_of_voted hcandidate voted' below).mp hepoch).1
    have hle := enactment?_le_of_voted voted' below hepoch
    rcases (Epoch.le_next_iff below').mp hle with hold | rfl
    · exact absurd hdue (hnever epoch hold)
    · exact ⟨rfl, hdue⟩
  · intro h
    obtain ⟨rfl, due⟩ := h
    refine (enactment?_iff_of_voted hcandidate voted' below).mpr ⟨due, fun e hlt => hnever e ?_⟩
    exact Nat.le_of_not_lt fun hlater => Nat.not_le.mpr hlt ((Epoch.next_le_iff below').mpr hlater)

end Votes

-- ================================================================ current forks

/-- The last fixed fork that was passed. -/
structure Latest (registry : Registry ρ) (now : Epoch) (fork : FixedFork ρ) : Prop where
  mem : fork ∈ registry.fixed
  passed : fork.epoch ≤ now
  last : ∀ other ∈ registry.fixed, other.epoch ≤ now → other.epoch ≤ fork.epoch

/-- The fork that the schedule and the votes call for: the candidate once it
was enacted, and the last fixed fork that was passed until then. -/
inductive Current (registry : Registry ρ) (history : History) (now : Epoch) : Fork ρ → Prop
  | fixed {fork : FixedFork ρ} (latest : registry.Latest now fork)
      (quiet : ∀ epoch, registry.enactment? history = some epoch → now < epoch) :
      Current registry history now (.fixed fork)
  | candidate {candidate : CandidateFork ρ} {epoch : Epoch}
      (listed : registry.candidate = some candidate)
      (enacted : registry.enactment? history = some epoch) (passed : epoch ≤ now) :
      Current registry history now (.candidate candidate)

/-- The fork in force is one of the registry's. -/
theorem Current.mem {fork : Fork ρ} (h : registry.Current history now fork) :
    fork ∈ registry.forks := by
  cases h with
  | fixed latest quiet => exact List.mem_append_left _ (List.mem_map_of_mem latest.mem)
  | candidate listed enacted passed =>
      refine List.mem_append_right _ ?_
      rw [listed]
      exact List.mem_singleton_self _

/-- Which fork is in force is a matter of the shares on record. -/
theorem Current.congr {fork : Fork ρ} (h : registry.Current history now fork)
    (same : after.shares = history.shares) : registry.Current after now fork := by
  have henacted := enactment?_congr registry same
  cases h with
  | fixed latest quiet => exact .fixed latest (by rwa [henacted])
  | candidate listed enacted passed => exact .candidate listed (henacted.trans enacted) passed

/-- What becomes active at the next epoch, on the votes recorded until then:
the fixed fork of that epoch, the candidate if it is enacted there, or
nothing. -/
inductive Opens (registry : Registry ρ) (history after : History) (now : Epoch) :
    Option (Fork ρ) → Prop
  | fixed {fork : FixedFork ρ} (listed : fork ∈ registry.fixed) (due : fork.epoch = now.next)
      (kept : registry.enactment? after = registry.enactment? history) :
      Opens registry history after now (some (.fixed fork))
  | candidate {candidate : CandidateFork ρ} (listed : registry.candidate = some candidate)
      (clear : ∀ fork ∈ registry.fixed, fork.epoch ≠ now.next)
      (before : registry.enactment? history = none)
      (enacted : registry.enactment? after = some now.next) :
      Opens registry history after now (some (.candidate candidate))
  | nothing (clear : ∀ fork ∈ registry.fixed, fork.epoch ≠ now.next)
      (kept : registry.enactment? after = registry.enactment? history) :
      Opens registry history after now none

/-- The fixed forks passed by the next epoch are those passed by now and that
of the next epoch. -/
theorem passed_next_iff (below : now < .last) {e : Epoch} {name : String} :
    (∃ fork ∈ registry.fixed, fork.epoch ≤ now.next ∧ fork.epoch = e ∧ fork.name = name) ↔
      (∃ fork ∈ registry.fixed, fork.epoch ≤ now ∧ fork.epoch = e ∧ fork.name = name)
        ∨ ∃ fork ∈ registry.fixed, fork.epoch = now.next ∧ fork.epoch = e ∧ fork.name = name := by
  simp only [Epoch.le_next_iff below, or_and_right, and_or_left, exists_or]

/-- Without a fixed fork of the next epoch, they are the same. -/
theorem passed_next_iff_of_clear (below : now < .last)
    (clear : ∀ fork ∈ registry.fixed, fork.epoch ≠ now.next) {e : Epoch} {name : String} :
    (∃ fork ∈ registry.fixed, fork.epoch ≤ now.next ∧ fork.epoch = e ∧ fork.name = name) ↔
      ∃ fork ∈ registry.fixed, fork.epoch ≤ now ∧ fork.epoch = e ∧ fork.name = name := by
  refine (passed_next_iff below).trans (or_iff_left ?_)
  intro h
  obtain ⟨fork, hfork, hnext, -⟩ := h
  exact clear fork hfork hnext

namespace Opens

variable {enacted : Option (Fork ρ)}

/-- What becomes active is all that the schedule and the votes newly ask
for. -/
theorem scheduled_iff (h : registry.Opens history after now enacted) (sound : registry.Sound)
    (below : now < .last) {e : Epoch} {name : String} :
    registry.Scheduled after now.next e name ↔
      registry.Scheduled history now e name
        ∨ ∃ fork, enacted = some fork ∧ now.next = e ∧ fork.name = name := by
  rw [Scheduled, Scheduled]
  cases h with
  | @fixed fork listed due kept =>
      -- epochs are unique, so what falls due at the next epoch is this fork
      have hnew : (∃ other ∈ registry.fixed,
            other.epoch = now.next ∧ other.epoch = e ∧ other.name = name) ↔
          now.next = e ∧ fork.name = name := by
        constructor
        · intro h
          obtain ⟨other, hother, hnow, rfl, rfl⟩ := h
          obtain rfl := sound.eq_of_epoch_eq hother listed (hnow.trans due.symm)
          exact ⟨due.symm, rfl⟩
        · intro h
          obtain ⟨rfl, rfl⟩ := h
          exact ⟨fork, listed, due, due, rfl⟩
      rw [passed_next_iff below, hnew, kept, or_right_comm]
      simp [Fork.name]
  | candidate listed clear before enacted =>
      rw [passed_next_iff_of_clear below clear, before, enacted]
      simp [listed, Fork.name]
  | nothing clear kept =>
      rw [passed_next_iff_of_clear below clear, kept]
      simp

/-- What becomes active is the current fork of the next epoch; if nothing
does, the current fork stays. -/
theorem current (h : registry.Opens history after now enacted) (sound : registry.Sound)
    (below : now < .last) (voted : history.Voted now) {fork : Fork ρ}
    (hcurrent : registry.Current history now fork) :
    registry.Current after now.next (enacted.getD fork) := by
  cases h with
  | @fixed next listed due kept =>
      have hdue := congrArg Epoch.toNat due
      refine .fixed ⟨listed, Nat.le_of_eq hdue, fun other _ hle => ?_⟩ fun epoch henacted => ?_
      · rwa [due]
      · rw [← due]
        exact sound.lt_enactment henacted listed
  | candidate listed clear before henacted => exact .candidate listed henacted (Nat.le_refl _)
  | nothing clear kept =>
      -- nothing begins: what is active now is active still
      have hnow := Nat.le_of_lt (Epoch.lt_next below)
      cases hcurrent with
      | fixed latest quiet =>
          refine .fixed ⟨latest.mem, Nat.le_trans latest.passed hnow, ?_⟩ fun epoch henacted => ?_
          · intro other hother hle
            rcases (Epoch.le_next_iff below).mp hle with hold | hnew
            · exact latest.last other hother hold
            · exact absurd hnew (clear other hother)
          · rw [kept] at henacted
            exact absurd (quiet epoch henacted)
              (Nat.not_lt.mpr (enactment?_le_of_voted voted below henacted))
      | candidate listed henacted passed =>
          exact .candidate listed (kept.trans henacted) (Nat.le_trans passed hnow)

end Opens

end Registry

end LedgerCore
