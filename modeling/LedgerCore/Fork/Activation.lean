/-
Activation of forks: how a registry and a history work together. At each
epoch boundary it is decided whether the next fork becomes active, and what
was decided is recorded. At startup the history is reconciled with the
schedule: what it lacks is made up for, and what contradicts the schedule is
refused.

Everything here runs on any `ActivationStore`. A run that fails keeps what
it had recorded up to then.
-/
import LedgerCore.Fork.Registry

namespace LedgerCore

-- ============================================================= boundaries

/-- What a committed proof says about its epoch. -/
structure EpochBoundary where
  epoch : Epoch
  /-- Whether the proof closes its epoch. -/
  closes : Bool
  /-- What the validators voted, if it does. -/
  results : List VotingResult
deriving DecidableEq

-- ========================================================= sustained votes

namespace CandidateSchedule

/-- The first epoch of the window at which results, in ascending order of
epochs, satisfy a threshold. -/
def firstEnactment? (schedule : CandidateSchedule) :
    (counts : List EpochSpan) → (previous : Option Epoch) → List VotingResult → Option Epoch
  | _, _, [] => none
  | counts, previous, result :: rest =>
      let consecutive := match previous with
        | none => true
        | some epoch => epoch.next == result.epoch
      let counts := Threshold.advanceAll schedule.thresholds result.stake consecutive counts
      if schedule.windowContains result.epoch && Threshold.anyPassed schedule.thresholds counts then
        some result.epoch
      else schedule.firstEnactment? counts (some result.epoch) rest

end CandidateSchedule

namespace Registry

variable {ρ σ : Type} [ActivationStore σ]

/-- A computation on a store that may fail. -/
abbrev Action (σ : Type) := ExceptT ForkError (StateM σ)

/-- An operation of the store as part of a computation. -/
def onStore {α : Type} (op : σ → Except StoreError α × σ) : Action σ α :=
  ExceptT.mk fun store =>
    match op store with
    | (.ok value, after) => (.ok value, after)
    | (.error cause, after) => (.error (.store cause), after)

/-- A computation that contradicts the schedule. -/
def inconsistent {α : Type} (cause : ForkConsistencyError) : Action σ α :=
  throw (.consistency cause)

-- ============================================================== candidate

/-- The first epoch of the candidate's window at which the recorded votes
satisfy one of its thresholds. -/
def findEnactment (registry : Registry ρ) : Action σ (Option Epoch) := do
  match registry.candidate with
  | none => return none
  | some candidate =>
      let schedule := candidate.schedule
      let start := schedule.minEpoch.rewind schedule.longestSpan
      let stop := schedule.maxEpoch.next
      let results ← onStore (ActivationStore.votes start stop candidate.id)
      return schedule.firstEnactment? (Threshold.noCounts schedule.thresholds) none results

/-- Whether the candidate becomes active after a boundary. It takes a
boundary that closes its epoch and carries a result for the candidate,
which is counted after the recorded ones. -/
def enactsCandidate (registry : Registry ρ) (boundary : EpochBoundary) : Action σ Bool := do
  match registry.candidate with
  | none => return false
  | some candidate =>
      if !boundary.closes then return false
      match boundary.results.find? fun result => result.candidate == candidate.id with
      | none => return false
      | some current =>
          let schedule := candidate.schedule
          let next := boundary.epoch.next
          if !schedule.windowContains next then return false
          let start := next.rewind schedule.longestSpan
          let recorded ← onStore (ActivationStore.votes start schedule.maxEpoch candidate.id)
          let counts := Threshold.sustained schedule.thresholds next (recorded ++ [current])
          return Threshold.anyPassed schedule.thresholds counts

-- ============================================================= boundaries

/-- The fork a boundary makes active, if any. -/
def enacted? (registry : Registry ρ) (current : String) (boundary : EpochBoundary) :
    Action σ (Option (Fork ρ)) := do
  match registry.link? current with
  | some (.fixed index) =>
      match registry.fixed[index]? with
      | some fork =>
          if boundary.closes && fork.epoch ≤ boundary.epoch.next then return some (.fixed fork)
          else return none
      | none => return none
  | some .candidate =>
      if ← registry.enactsCandidate boundary then return registry.candidate.map .candidate
      else return none
  | none => return none

/-- Processes a boundary under the current fork: records the votes it
carries and, if the next fork becomes active, records that for the epoch
after the boundary and answers the fork. -/
def processBoundary (registry : Registry ρ) (current : String) (boundary : EpochBoundary) :
    Action σ (Option (Fork ρ)) := do
  if (registry.byName? current).isNone then inconsistent (.unknownFork current)
  let enacted ← registry.enacted? current boundary
  if boundary.closes && !boundary.results.isEmpty then
    onStore (ActivationStore.recordVotes boundary.results)
  if let some fork := enacted then
    onStore (ActivationStore.recordActivation boundary.epoch.next fork.name)
  return enacted

-- ================================================================ startup

/-- Whether a history records a fork at all. -/
def isRecorded (activations : Activations) (name : String) : Bool :=
  activations.toList.any fun entry => entry.2 == name

/-- The first epoch a history records a fork at. -/
def recordedAt? (activations : Activations) (name : String) : Option Epoch :=
  (activations.toList.find? fun entry => entry.2 == name).map Prod.fst

/-- Records the fixed forks that the ledger has passed and the history lacks. -/
def recordMissedFixed (recorded : Activations) (current : Epoch) :
    List (FixedFork ρ) → Action σ Unit
  | [] => return ()
  | fork :: rest => do
      if fork.epoch ≤ current && !isRecorded recorded fork.name then
        onStore (ActivationStore.recordActivation fork.epoch fork.name)
      recordMissedFixed recorded current rest

/-- Records the candidate where the recorded votes call for it and the
history lacks it; refuses a history that has it elsewhere. -/
def recordMissedCandidate (registry : Registry ρ) (recorded : Activations) : Action σ Unit := do
  match registry.candidate with
  | none => return ()
  | some candidate =>
      let computed ← registry.findEnactment
      match computed, recordedAt? recorded candidate.name with
      | some computed, some stored =>
          if computed ≠ stored then
            inconsistent (.candidateEpochMismatch candidate.name computed stored)
      | some computed, none =>
          onStore (ActivationStore.recordActivation computed candidate.name)
      | none, some stored => inconsistent (.candidateWithoutVotes candidate.name stored)
      | none, none => return ()

/-- Whether the schedule allows a fork at an epoch. -/
def allows (registry : Registry ρ) (epoch : Epoch) (name : String) : Bool :=
  (registry.fixed.any fun fork => fork.epoch == epoch && fork.name == name)
    || registry.candidate.any fun candidate =>
        candidate.schedule.windowContains epoch && candidate.name == name

/-- Refuses a history without a fixed fork that the ledger has passed. -/
def checkFixed (activations : Activations) (current : Epoch) :
    List (FixedFork ρ) → Except ForkConsistencyError Unit
  | [] => .ok ()
  | fork :: rest =>
      if fork.epoch ≠ .genesis ∧ fork.epoch ≤ current
          ∧ activations[fork.epoch]? ≠ some fork.name then
        .error (.missingFixedFork fork.name fork.epoch)
      else checkFixed activations current rest

/-- Refuses entries of a history that lie in the future or that the schedule
does not allow. -/
def checkEntries (registry : Registry ρ) (current : Epoch) :
    List (Epoch × String) → Except ForkConsistencyError Unit
  | [] => .ok ()
  | (epoch, name) :: rest =>
      if current < epoch then .error (.storedForkInFuture name epoch current)
      else if registry.allows epoch name then checkEntries registry current rest
      else .error (.unexpectedStoredFork name epoch)

/-- Refuses a history that contradicts the schedule. -/
def checkHistory (registry : Registry ρ) (activations : Activations) (current : Epoch) :
    Except ForkConsistencyError Unit := do
  checkFixed activations current registry.fixed
  registry.checkEntries current activations.toList

/-- Reconciles the history with the schedule, for a ledger that is committed
up to an epoch, or not at all. -/
def reconcile (registry : Registry ρ) (committed : Option Epoch) : Action σ Unit := do
  let recorded ← onStore ActivationStore.activations
  let current := committed.getD .genesis
  recordMissedFixed recorded current registry.fixed
  registry.recordMissedCandidate recorded
  let recorded ← onStore ActivationStore.activations
  match registry.checkHistory recorded current with
  | .ok () => return ()
  | .error cause => inconsistent cause

end Registry

end LedgerCore
