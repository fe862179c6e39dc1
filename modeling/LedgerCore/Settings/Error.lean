/-
What can be wrong with a node's settings: the file that holds them, the
fork schedule they describe, the rule sets it names, or the engine's limits.
-/
import LedgerCore.Fork.Error

namespace LedgerCore

/-- Engine limits that make no sense. -/
inductive EngineFault where
  | exclusiveFees
  | noNativeResource
deriving DecidableEq

/-- The wording of a fault. -/
def EngineFault.message : EngineFault → String
  | exclusiveFees => "fixed_fee and fee_per_byte are mutually exclusive"
  | noNativeResource => "native_resource must not be empty"

/-- Anything that can be wrong with settings. -/
inductive SettingsError where
  /-- The file cannot be read. -/
  | unreadable
  /-- The file does not hold settings. -/
  | malformed
  | invalidForks (cause : ForkConfigError)
  | unknownRuleSet (fork : String)
  | invalidEngine (fault : EngineFault)
deriving DecidableEq

namespace SettingsError

/-- The name an error goes by in reports. -/
def name : SettingsError → String
  | unreadable => "Io"
  | malformed => "Toml"
  | invalidForks _ => "InvalidForks"
  | unknownRuleSet _ => "UnknownRuleSet"
  | invalidEngine _ => "InvalidEngine"

/-- The wording of an error. What is wrong with a file is for whoever read
it to say. -/
def message? : SettingsError → Option String
  | unreadable | malformed => none
  | invalidForks cause => some ("fork schedule: " ++ cause.message)
  | unknownRuleSet fork => some ("no rule set registered for fork '" ++ fork ++ "'")
  | invalidEngine fault => some ("engine settings: " ++ fault.message)

end SettingsError

end LedgerCore
