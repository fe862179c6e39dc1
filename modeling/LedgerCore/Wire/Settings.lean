/-
The wire form of settings. They are written in full, except that there is
nothing about a candidate where there is none.
-/
import LedgerCore.Settings.Reading
import LedgerCore.Wire.Substate

namespace LedgerCore

open Json Wire

-- ================================================================ writing

namespace FixedForkSettings

/-- How a fixed fork is written. -/
def toWire (fork : FixedForkSettings) : Value :=
  .record [("name", .ofString fork.name), ("epoch", encode fork.epoch)]

end FixedForkSettings

namespace CandidateSettings

/-- How a threshold is written in settings. -/
def thresholdToWire (threshold : Threshold) : Value :=
  .record [("required_stake", encode threshold.requiredStake),
    ("epochs", encode threshold.epochs)]

/-- How a candidate is written. -/
def toWire (fork : CandidateSettings) : Value :=
  .record [("name", .ofString fork.name), ("min_epoch", encode fork.schedule.minEpoch),
    ("max_epoch", encode fork.schedule.maxEpoch),
    ("thresholds", .array (fork.schedule.thresholds.map thresholdToWire))]

end CandidateSettings

namespace ForkSettings

/-- How a schedule is written. -/
def toWire (settings : ForkSettings) : Value :=
  let fixed := ("fixed", .array (settings.fixed.map FixedForkSettings.toWire))
  match settings.candidate with
  | none => .record [fixed]
  | some fork => .record [fixed, ("candidate", fork.toWire)]

end ForkSettings

namespace EngineSettings

/-- How the engine's limits are written. -/
def toWire (settings : EngineSettings) : Value :=
  .record [("max_signatures_per_txn", encode settings.maxSignatures),
    ("fixed_fee", .natural settings.fixedFee.toNat),
    ("fee_per_byte", .natural settings.feePerByte.toNat),
    ("native_resource", encode settings.nativeResource)]

end EngineSettings

-- ================================================================ reading

/-- JSON as a tree of settings; a node carries the room that is left. -/
def Reading.json : Reading (Nat × Value) where
  natural? limit node := node.2.natural? limit
  text? node := node.2.text?
  items? node := do
    let (room, items) ← node.2.items? node.1
    return items.map (room, ·)
  fields? names node :=
    match node.1 with
    | 0 => none
    | room + 1 => do
        return (← node.2.someFields? names).map fun (name, value) => (name, room, value)
  isAbsent node := node.2 matches .null

instance : Wire Settings where
  encode settings :=
    .record [("forks", settings.forks.toWire), ("engine", settings.engine.toWire)]
  decode room value := Reading.json.settings? (room, value)

end LedgerCore
