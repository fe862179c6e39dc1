/-
How settings are read off a tree. Settings come from JSON text, from a
settings file and from merged layers; the three kinds of tree differ in
what they take for a number, for text or for a record, and a `Reading` says
so. The rest is the same for all: which fields there are, which may be left
out, and what they then are.
-/
import LedgerCore.Settings

namespace LedgerCore

/-- What the nodes of a kind of tree stand for. -/
structure Reading (ν : Type) where
  /-- A natural number below a limit. -/
  natural? : (limit : Nat) → ν → Option Nat
  /-- Text. -/
  text? : ν → Option String
  /-- The items of a list. -/
  items? : ν → Option (List ν)
  /-- The fields of a record that have one of the names. A list is a record
  of its items in order, and may be cut short. -/
  fields? : (names : List String) → ν → Option (List (String × ν))
  /-- Whether a node stands for a value left out. -/
  isAbsent : ν → Bool

namespace Reading

variable {ν : Type} (reading : Reading ν)

-- ================================================================= fields

/-- A list whose items are all readable. -/
def list? {α : Type} (item? : ν → Option α) (node : ν) : Option (List α) := do
  (← reading.items? node).mapM item?

/-- A field that a record may leave out. -/
def field? {α : Type} (read? : ν → Option α) (standard : α) (fields : List (String × ν))
    (name : String) : Option α :=
  match fields.lookup name with
  | none => some standard
  | some node => read? node

/-- An epoch. -/
def epoch? (node : ν) : Option Epoch := reading.natural? UInt64.size node >>= Epoch.ofNat?

/-- A number of epochs. -/
def span? (node : ν) : Option EpochSpan :=
  reading.natural? UInt64.size node >>= EpochSpan.ofNat?

-- ========================================================== fork schedule

/-- A fixed fork; no field may be left out. -/
def fixedFork? (node : ν) : Option FixedForkSettings := do
  let fields ← reading.fields? ["name", "epoch"] node
  let name ← reading.text? (← fields.lookup "name")
  let epoch ← reading.epoch? (← fields.lookup "epoch")
  return ⟨name, epoch⟩

/-- A threshold; no field may be left out. -/
def threshold? (node : ν) : Option Threshold := do
  let fields ← reading.fields? ["required_stake", "epochs"] node
  let requiredStake ← reading.natural? UInt16.size (← fields.lookup "required_stake")
  let epochs ← reading.span? (← fields.lookup "epochs")
  return ⟨UInt16.ofNat requiredStake, epochs⟩

/-- A candidate; no field may be left out. -/
def candidate? (node : ν) : Option CandidateSettings := do
  let fields ← reading.fields? ["name", "min_epoch", "max_epoch", "thresholds"] node
  let name ← reading.text? (← fields.lookup "name")
  let minEpoch ← reading.epoch? (← fields.lookup "min_epoch")
  let maxEpoch ← reading.epoch? (← fields.lookup "max_epoch")
  let thresholds ← reading.list? reading.threshold? (← fields.lookup "thresholds")
  return ⟨name, ⟨minEpoch, maxEpoch, thresholds⟩⟩

/-- A candidate, if there is one. -/
def optionalCandidate? (node : ν) : Option (Option CandidateSettings) :=
  if reading.isAbsent node then some none else some <$> reading.candidate? node

/-- A fork schedule. -/
def forks? (node : ν) : Option ForkSettings := do
  let fields ← reading.fields? ["fixed", "candidate"] node
  let standard := ForkSettings.standard
  let fixed ← field? (reading.list? reading.fixedFork?) standard.fixed fields "fixed"
  let candidate ← field? reading.optionalCandidate? standard.candidate fields "candidate"
  return ⟨fixed, candidate⟩

-- ========================================================== engine limits

/-- A fee. -/
def fee? (node : ν) : Option UInt64 := UInt64.ofNat <$> reading.natural? UInt64.size node

/-- One byte. -/
def byte? (node : ν) : Option UInt8 := UInt8.ofNat <$> reading.natural? UInt8.size node

/-- A resource, as a list of bytes. -/
def resource? (node : ν) : Option ResourceAddr :=
  ResourceAddr.mk <$> reading.list? reading.byte? node

/-- The engine's limits. -/
def engine? (node : ν) : Option EngineSettings := do
  let fields ← reading.fields?
    ["max_signatures_per_txn", "fixed_fee", "fee_per_byte", "native_resource"] node
  let standard := EngineSettings.standard
  let signatures? := fun node => UInt32.ofNat <$> reading.natural? UInt32.size node
  let maxSignatures ←
    field? signatures? standard.maxSignatures fields "max_signatures_per_txn"
  let fixedFee ← field? reading.fee? standard.fixedFee fields "fixed_fee"
  let feePerByte ← field? reading.fee? standard.feePerByte fields "fee_per_byte"
  let nativeResource ←
    field? reading.resource? standard.nativeResource fields "native_resource"
  return ⟨maxSignatures, fixedFee, feePerByte, nativeResource⟩

-- ============================================================ all settings

/-- The settings of a node. -/
def settings? (node : ν) : Option Settings := do
  let fields ← reading.fields? ["forks", "engine"] node
  let forks ← field? reading.forks? ForkSettings.standard fields "forks"
  let engine ← field? reading.engine? EngineSettings.standard fields "engine"
  return ⟨forks, engine⟩

end Reading

end LedgerCore
