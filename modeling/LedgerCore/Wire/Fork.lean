/-
The wire forms of fork schedules and voting results: records throughout.
-/
import LedgerCore.Fork.Vote
import LedgerCore.Wire.Substate

namespace LedgerCore

open Json Wire

instance : Wire Threshold where
  encode threshold :=
    .record [("required_stake", encode threshold.requiredStake),
      ("epochs_before_enacted", encode threshold.epochs)]
  decode room value := do
    let (room, fields) ← value.record? ["required_stake", "epochs_before_enacted"] room
    let requiredStake ← field? room fields "required_stake"
    let epochs ← field? room fields "epochs_before_enacted"
    return ⟨requiredStake, epochs⟩

instance : Wire CandidateSchedule where
  encode schedule :=
    .record [("min_epoch", encode schedule.minEpoch), ("max_epoch", encode schedule.maxEpoch),
      ("thresholds", encodeList schedule.thresholds)]
  decode room value := do
    let (room, fields) ← value.record? ["min_epoch", "max_epoch", "thresholds"] room
    let minEpoch ← field? room fields "min_epoch"
    let maxEpoch ← field? room fields "max_epoch"
    let thresholds ← decodeList room (← fields.lookup "thresholds")
    return ⟨minEpoch, maxEpoch, thresholds⟩

instance : Wire VotingResult where
  encode result :=
    .record [("epoch", encode result.epoch), ("candidate_fork_id", encode result.candidate.hash),
      ("stake_percentage", encode result.stake)]
  decode room value := do
    let (room, fields) ← value.record? ["epoch", "candidate_fork_id", "stake_percentage"] room
    let epoch ← field? room fields "epoch"
    let candidate ← field? room fields "candidate_fork_id"
    let stake ← field? room fields "stake_percentage"
    return ⟨epoch, ⟨candidate⟩, stake⟩

end LedgerCore
