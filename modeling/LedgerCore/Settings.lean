/-
The settings of a node: its fork schedule and the limits of its engine.
Settings are plain data. `ForkSettings.build` turns the schedule into a
registry, given a rule set for each name; `validate` is the same check with
no rule sets involved, so settings that validate always build.
-/
import LedgerCore.Fork.Registry
import LedgerCore.Meter
import LedgerCore.Settings.Error

namespace LedgerCore

-- ========================================================== fork schedule

/-- A fork that becomes active at a known epoch, by name. -/
structure FixedForkSettings where
  name : String
  epoch : Epoch
deriving DecidableEq

/-- A candidate fork, by name. -/
structure CandidateSettings where
  name : String
  schedule : CandidateSchedule
deriving DecidableEq

/-- The fork schedule of a node. -/
structure ForkSettings where
  fixed : List FixedForkSettings
  candidate : Option CandidateSettings
deriving DecidableEq

namespace ForkSettings

/-- One fork, in force from the start. -/
def standard : ForkSettings := ⟨[⟨"genesis", .genesis⟩], none⟩

instance : Inhabited ForkSettings := ⟨standard⟩

variable {ρ : Type}

/-- The rule set of a name, as far as there is one. -/
def rulesOf (resolve : String → Option ρ) (name : String) : Except SettingsError ρ :=
  match resolve name with
  | some rules => .ok rules
  | none => .error (.unknownRuleSet name)

/-- The forks of a schedule with their rule sets: the fixed ones in order,
then the candidate. Refused at the first name without a rule set. -/
def forks (settings : ForkSettings) (resolve : String → Option ρ) :
    Except SettingsError (List (Fork ρ)) := do
  let fixed ← settings.fixed.mapM fun fork => do
    return Fork.fixed ⟨fork.name, fork.epoch, ← rulesOf resolve fork.name⟩
  match settings.candidate with
  | none => return fixed
  | some fork =>
      return fixed ++ [.candidate ⟨fork.name, fork.schedule, ← rulesOf resolve fork.name⟩]

/-- The registry of a schedule. -/
def build (settings : ForkSettings) (resolve : String → Option ρ) :
    Except SettingsError (Registry ρ) := do
  match Registry.create (← settings.forks resolve) with
  | .ok registry => return registry
  | .error cause => throw (.invalidForks cause)

/-- Checks a schedule, whatever the rule sets are. -/
def validate (settings : ForkSettings) : Except SettingsError Unit := do
  let _ ← settings.build fun _ => some ()

end ForkSettings

-- ========================================================== engine limits

/-- The limits of the engine. -/
structure EngineSettings where
  maxSignatures : UInt32
  /-- Flat fee per transaction, in subunits. -/
  fixedFee : UInt64
  /-- Fee per payload byte, in subunits. -/
  feePerByte : UInt64
  nativeResource : ResourceAddr
deriving DecidableEq

namespace EngineSettings

/-- Fifty signatures, no fees. -/
def standard : EngineSettings := ⟨50, 0, 0, .native⟩

instance : Inhabited EngineSettings := ⟨standard⟩

/-- A fresh context that pays fees in the configured resource and has the
configured signature budget. -/
def context (settings : EngineSettings) (txn : Txn) (level : PermissionLevel) : Context :=
  { Context.fresh txn level settings.maxSignatures.toNat with
    feeResource := settings.nativeResource }

/-- The amount of a configured fee. -/
def feeAmount (fee : UInt64) : Amount :=
  ⟨fee.toNat, Nat.lt_trans fee.toNat_lt (by decide)⟩

/-- The meter of these settings: a flat fee before one by size. -/
def meter (settings : EngineSettings) : Meter :=
  if 0 < settings.fixedFee then .fixed (feeAmount settings.fixedFee)
  else if 0 < settings.feePerByte then .bySize (feeAmount settings.feePerByte)
  else .free

/-- Checks the limits. -/
def validate (settings : EngineSettings) : Except SettingsError Unit :=
  if 0 < settings.fixedFee ∧ 0 < settings.feePerByte then .error (.invalidEngine .exclusiveFees)
  else if settings.nativeResource.bytes.isEmpty then .error (.invalidEngine .noNativeResource)
  else .ok ()

end EngineSettings

-- ============================================================ all settings

/-- The settings of a node. -/
structure Settings where
  forks : ForkSettings
  engine : EngineSettings
deriving DecidableEq

namespace Settings

/-- The settings of a node that says nothing. -/
def standard : Settings := ⟨.standard, .standard⟩

instance : Inhabited Settings := ⟨standard⟩

/-- Checks the schedule, then the limits. -/
def validate (settings : Settings) : Except SettingsError Unit := do
  settings.forks.validate
  settings.engine.validate

end Settings

end LedgerCore
