/-
What can be wrong with forks. A configuration error is a schedule that
makes no sense; a consistency error is a recorded history that contradicts
the schedule; a store error is a failure of the store itself. Each has one
wording.
-/
import LedgerCore.Epoch

namespace LedgerCore

-- ========================================================== configuration

/-- A schedule that makes no sense. -/
inductive ForkConfigError where
  | duplicateName (name : String)
  | noFixedFork
  | genesisNotAtZero (name : String) (epoch : Epoch)
  | nonIncreasingEpochs (name : String) (epoch previous : Epoch)
  | multipleCandidates
  | candidateOverlapsFixed (minEpoch lastFixed : Epoch)
  | invalidCandidateWindow (minEpoch maxEpoch : Epoch)
  | missingThresholds (name : String)
  | invalidThreshold (requiredStake : UInt16) (epochs : EpochSpan)
deriving DecidableEq

namespace ForkConfigError

/-- The name an error goes by in reports. -/
def name : ForkConfigError → String
  | duplicateName _ => "DuplicateName"
  | noFixedFork => "NoFixedFork"
  | genesisNotAtZero .. => "GenesisNotAtZero"
  | nonIncreasingEpochs .. => "NonIncreasingEpochs"
  | multipleCandidates => "MultipleCandidates"
  | candidateOverlapsFixed .. => "CandidateOverlapsFixed"
  | invalidCandidateWindow .. => "InvalidCandidateWindow"
  | missingThresholds _ => "MissingThresholds"
  | invalidThreshold .. => "InvalidThreshold"

/-- The wording of an error. -/
def message : ForkConfigError → String
  | duplicateName name => "duplicate fork name '" ++ name ++ "'"
  | noFixedFork => "at least one fixed-epoch fork is required"
  | genesisNotAtZero name epoch =>
      "genesis fork '" ++ name ++ "' must start at epoch 0, got " ++ epoch.text
  | nonIncreasingEpochs name epoch previous =>
      "fork '" ++ name ++ "' at epoch " ++ epoch.text
        ++ " does not follow the previous fork at epoch " ++ previous.text
  | multipleCandidates => "only a single candidate fork is allowed"
  | candidateOverlapsFixed minEpoch lastFixed =>
      "candidate min epoch " ++ minEpoch.text ++ " must be greater than the last fixed epoch "
        ++ lastFixed.text
  | invalidCandidateWindow minEpoch maxEpoch =>
      "candidate window [" ++ minEpoch.text ++ ", " ++ maxEpoch.text ++ "] is empty"
  | missingThresholds name => "candidate fork '" ++ name ++ "' has no voting thresholds"
  | invalidThreshold requiredStake epochs =>
      "invalid threshold: " ++ requiredStake.toNat.repr ++ " basis points over "
        ++ epochs.text ++ " epochs"

end ForkConfigError

-- ============================================================ consistency

/-- A recorded history that contradicts the schedule. -/
inductive ForkConsistencyError where
  | missingFixedFork (name : String) (epoch : Epoch)
  | storedForkInFuture (name : String) (epoch current : Epoch)
  | unexpectedStoredFork (name : String) (epoch : Epoch)
  | candidateEpochMismatch (name : String) (computed stored : Epoch)
  | candidateWithoutVotes (name : String) (stored : Epoch)
  | unknownFork (name : String)
deriving DecidableEq

namespace ForkConsistencyError

/-- The name an error goes by in reports. -/
def name : ForkConsistencyError → String
  | missingFixedFork .. => "MissingFixedFork"
  | storedForkInFuture .. => "StoredForkInFuture"
  | unexpectedStoredFork .. => "UnexpectedStoredFork"
  | candidateEpochMismatch .. => "CandidateEpochMismatch"
  | candidateWithoutVotes .. => "CandidateWithoutVotes"
  | unknownFork _ => "UnknownFork"

/-- The wording of an error. -/
def message : ForkConsistencyError → String
  | missingFixedFork name epoch =>
      "fork '" ++ name ++ "' should have been executed at epoch " ++ epoch.text ++ ", but wasn't"
  | storedForkInFuture name epoch current =>
      "fork '" ++ name ++ "' recorded at epoch " ++ epoch.text
        ++ ", beyond the current epoch " ++ current.text
  | unexpectedStoredFork name epoch =>
      "fork '" ++ name ++ "' was executed at epoch " ++ epoch.text ++ ", but shouldn't have been"
  | candidateEpochMismatch name computed stored =>
      "candidate fork '" ++ name ++ "' should have been executed at epoch " ++ computed.text
        ++ ", but was at " ++ stored.text
  | candidateWithoutVotes name stored =>
      "candidate fork '" ++ name ++ "' shouldn't have been executed, but was at epoch "
        ++ stored.text
  | unknownFork name => "unknown fork '" ++ name ++ "'"

end ForkConsistencyError

-- ============================================================= all errors

/-- A failure of the store that keeps the history. -/
structure StoreError where
  reason : String
deriving DecidableEq

/-- Anything that can go wrong with forks. -/
inductive ForkError where
  | config (cause : ForkConfigError)
  | consistency (cause : ForkConsistencyError)
  | store (cause : StoreError)
deriving DecidableEq

namespace ForkError

/-- The kind of an error. -/
def group : ForkError → String
  | config _ => "Config"
  | consistency _ => "Consistency"
  | store _ => "Store"

/-- The name an error goes by in reports. -/
def name : ForkError → String
  | config cause => cause.name
  | consistency cause => cause.name
  | store _ => "StoreError"

/-- The wording of an error. -/
def message : ForkError → String
  | config cause => cause.message
  | consistency cause => "forks inconsistency: " ++ cause.message
  | store cause => "activation store: " ++ cause.reason

end ForkError

end LedgerCore
