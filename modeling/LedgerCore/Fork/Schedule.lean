/-
Forks and their schedule. A fork is a named rule set. A fixed fork becomes
active at a configured epoch; the one optional candidate fork becomes
active once enough validator stake has voted for it for long enough, within
its window of epochs. Stake is counted in basis points of the whole.
-/
import LedgerCore.Epoch
import LedgerCore.Text.Quoted

namespace LedgerCore

/-- The whole stake, in basis points. -/
def fullStake : Nat := 10000

-- ============================================================= thresholds

/-- A share of stake that has to be sustained for some epochs in a row. -/
structure Threshold where
  /-- The share, in basis points. -/
  requiredStake : UInt16
  /-- The number of epochs in a row. -/
  epochs : EpochSpan
deriving DecidableEq

namespace Threshold

/-- Whether a share of stake suffices. -/
def isMetBy (threshold : Threshold) (stake : UInt16) : Bool :=
  threshold.requiredStake ≤ stake

/-- Whether a threshold makes sense: some stake and at most all of it, for
at least one epoch. -/
def isValid (threshold : Threshold) : Bool :=
  0 < threshold.requiredStake.toNat && threshold.requiredStake.toNat ≤ fullStake
    && 0 < threshold.epochs.toNat

/-- The form a threshold takes inside diagnostics. -/
def diagnostic (threshold : Threshold) : String :=
  "Threshold \x7b required_stake: " ++ threshold.requiredStake.toNat.repr
    ++ ", epochs_before_enacted: " ++ threshold.epochs.text ++ " \x7d"

end Threshold

-- ============================================================== schedules

/-- When a candidate fork may become active, and on what support. -/
structure CandidateSchedule where
  minEpoch : Epoch
  maxEpoch : Epoch
  thresholds : List Threshold
deriving DecidableEq

namespace CandidateSchedule

/-- The longest span any threshold asks for. -/
def longestSpan (schedule : CandidateSchedule) : EpochSpan :=
  schedule.thresholds.foldl
    (fun longest threshold => if longest < threshold.epochs then threshold.epochs else longest)
    .none

/-- Whether the candidate may become active at an epoch. -/
def windowContains (schedule : CandidateSchedule) (epoch : Epoch) : Bool :=
  schedule.minEpoch ≤ epoch && epoch ≤ schedule.maxEpoch

/-- The form a schedule takes inside diagnostics. -/
def diagnostic (schedule : CandidateSchedule) : String :=
  "CandidateSchedule \x7b min_epoch: " ++ schedule.minEpoch.diagnostic
    ++ ", max_epoch: " ++ schedule.maxEpoch.diagnostic
    ++ ", thresholds: [" ++ ", ".intercalate (schedule.thresholds.map Threshold.diagnostic)
    ++ "] \x7d"

end CandidateSchedule

-- ================================================================== forks

/-- A fork that becomes active at a known epoch. -/
structure FixedFork (ρ : Type) where
  name : String
  epoch : Epoch
  rules : ρ

/-- A fork that becomes active by the validators' votes. -/
structure CandidateFork (ρ : Type) where
  name : String
  schedule : CandidateSchedule
  rules : ρ

/-- A configured fork. -/
inductive Fork (ρ : Type) where
  | fixed (fork : FixedFork ρ)
  | candidate (fork : CandidateFork ρ)

namespace Fork

variable {ρ : Type}

/-- The name of a fork. -/
def name : Fork ρ → String
  | fixed fork => fork.name
  | candidate fork => fork.name

/-- The rule set of a fork. -/
def rules : Fork ρ → ρ
  | fixed fork => fork.rules
  | candidate fork => fork.rules

/-- The epoch a fixed fork becomes active at. -/
def fixedEpoch? : Fork ρ → Option Epoch
  | fixed fork => some fork.epoch
  | candidate _ => none

/-- The schedule of a candidate. -/
def schedule? : Fork ρ → Option CandidateSchedule
  | fixed _ => none
  | candidate fork => some fork.schedule

/-- The form a fork takes inside diagnostics; its rules are left out. -/
def diagnostic (fork : Fork ρ) : String :=
  let kind := match fork with
    | fixed fork => "Fixed \x7b epoch: " ++ fork.epoch.diagnostic ++ " \x7d"
    | candidate fork => "Candidate(" ++ fork.schedule.diagnostic ++ ")"
  "ForkConfig \x7b name: " ++ Text.quoted fork.name ++ ", kind: " ++ kind ++ ", .. \x7d"

/-- The fixed forks of a list, in order. -/
def fixedOf (forks : List (Fork ρ)) : List (FixedFork ρ) :=
  forks.filterMap fun
    | fixed fork => some fork
    | candidate _ => none

/-- The candidates of a list, in order. -/
def candidatesOf (forks : List (Fork ρ)) : List (CandidateFork ρ) :=
  forks.filterMap fun
    | fixed _ => none
    | candidate fork => some fork

end Fork

end LedgerCore
