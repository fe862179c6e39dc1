/-
The sources of a node's settings, and the settings they add up to. From the
weakest to the strongest they are what holds by default, the user's file,
the project's file, the project's local file, and the environment.

`load` merges them, reads settings off the result, and validates those;
each of the three may fail.
-/
import LedgerCore.Settings.Draft
import LedgerCore.Toml.Document

namespace LedgerCore

-- ================================================================ sources

/-- What the settings are loaded from. -/
structure SettingsSources where
  /-- The text of the user's file. -/
  user : Option String
  /-- The text of the project's file. -/
  project : Option String
  /-- The text of the project's local file. -/
  projectLocal : Option String
  /-- The variables of the environment, by name. -/
  environment : List (String × String)
  /-- What the names of variables with settings start with. -/
  lead : String := "TESSERA"

/-- What may go wrong in loading settings. -/
inductive LoadError where
  | unmergeable
  | undecodable
  | invalid (cause : SettingsError)
deriving DecidableEq

/-- The wording of an error. -/
def LoadError.message : LoadError → String
  | unmergeable => "merging configuration sources"
  | undecodable => "decoding merged configuration"
  | invalid _ => "validating configuration"

namespace Draft

-- =============================================================== defaults

/-- What holds by default. -/
def ofSettings (settings : Settings) : List (String × Draft) :=
  let natural (n : Nat) : Draft := integer (Int.ofNat n)
  let fixed := settings.forks.fixed.map fun fork =>
    table [("name", text fork.name), ("epoch", natural fork.epoch.toNat)]
  let threshold (threshold : Threshold) : Draft :=
    table [("required_stake", natural threshold.requiredStake.toNat),
      ("epochs", natural threshold.epochs.toNat)]
  let candidate := settings.forks.candidate.toList.map fun fork =>
    ("candidate", table [("name", text fork.name),
      ("min_epoch", natural fork.schedule.minEpoch.toNat),
      ("max_epoch", natural fork.schedule.maxEpoch.toNat),
      ("thresholds", list (fork.schedule.thresholds.map threshold))])
  let engine := settings.engine
  [("forks", table (("fixed", list fixed) :: candidate)),
    ("engine", table [("max_signatures_per_txn", natural engine.maxSignatures.toNat),
      ("fixed_fee", natural engine.fixedFee.toNat),
      ("fee_per_byte", natural engine.feePerByte.toNat),
      ("native_resource", list (engine.nativeResource.bytes.map (natural ·.toNat)))])]

-- ================================================================== files

mutual

/-- The draft of a value in a file. Integers beyond 64 bits have none, nor
has what is no number at all. -/
def ofToml? : Toml.Value → Option Draft
  | .string s => some (text s)
  | .integer n => integer <$> word? n
  | .float x => some (float x)
  | .numberless => none
  | .boolean b => some (boolean b)
  | .moment m => some (text m.text)
  | .array items => list <$> itemsOfToml? items
  | .table entries => table <$> entriesOfToml? entries

/-- The drafts of items. -/
def itemsOfToml? : List Toml.Value → Option (List Draft)
  | [] => some []
  | item :: rest => do return (← ofToml? item) :: (← itemsOfToml? rest)

/-- The drafts of entries. -/
def entriesOfToml? : List (String × Toml.Value) → Option (List (String × Draft))
  | [] => some []
  | (name, value) :: rest => do return (name, ← ofToml? value) :: (← entriesOfToml? rest)

end

/-- What a file says. A byte order mark in front of it is passed over, even
before another one. -/
def ofFile? (contents : String) : Option (List (String × Draft)) := do
  let text := String.ofList (Toml.skipMark contents.toList)
  return (← ofToml? (← Toml.ofText? .lenient text)).entries

-- ============================================================ environment

/-- The draft of a variable: a truth value, an integer or another number if
it looks like one, else text. -/
def ofVariable (value : String) : Draft :=
  let word := Text.lower value
  let whole := Text.integer? value.toList >>= word?
  if word = "true" then boolean true
  else if word = "false" then boolean false
  else
    match whole, Binary64.ofText? value with
    | some n, _ => integer n
    | none, some x => float x
    | none, none => text value

/-- Puts a point for each two underscores. -/
def pointed : List Char → List Char
  | '_' :: '_' :: rest => '.' :: pointed rest
  | c :: rest => c :: pointed rest
  | [] => []

/-- What a variable sets, if its name starts as it should. Letters of either
case are the same in names. -/
def setting? (lead name : String) : Option String :=
  let start := (Text.lower lead).toList ++ ['_']
  let chars := (Text.lower name).toList
  if start.isPrefixOf chars then some (String.ofList (pointed (chars.drop start.length)))
  else none

/-- What the environment says. -/
def ofEnvironment (lead : String) (environment : List (String × String)) :
    List (String × Draft) :=
  environment.filterMap fun (name, value) =>
    (setting? lead name).map fun setting => (setting, ofVariable value)

end Draft

-- ================================================================ loading

namespace SettingsSources

/-- The files there are, the weakest first: where each one is, and its text. -/
def files (sources : SettingsSources) (userDir projectDir : String) : List (String × String) :=
  [(userDir ++ "/tessera/config.toml", sources.user),
    (projectDir ++ "/tessera.toml", sources.project),
    (projectDir ++ "/tessera.local.toml", sources.projectLocal)].filterMap
    fun (path, contents) => contents.map (path, ·)

/-- The texts of the files there are, the weakest first. -/
def contents (sources : SettingsSources) : List String :=
  [sources.user, sources.project, sources.projectLocal].filterMap fun contents => contents

/-- All that the sources say. -/
def merge? (sources : SettingsSources) : Option Draft := do
  let files ← sources.contents.mapM Draft.ofFile?
  let layers := Draft.ofSettings .standard :: files
    ++ [Draft.ofEnvironment sources.lead sources.environment]
  return layers.foldl Draft.layer (.table [])

/-- The settings that the sources add up to. -/
def load (sources : SettingsSources) : Except LoadError Settings :=
  match sources.merge? with
  | none => .error .unmergeable
  | some draft =>
      match Reading.draft.settings? draft with
      | none => .error .undecodable
      | some settings =>
          match settings.validate with
          | .error cause => .error (.invalid cause)
          | .ok () => .ok settings

/-- The settings that the sources add up to, or those that hold by default
when loading fails for any reason. -/
def loadOrStandard (sources : SettingsSources) : Settings :=
  match sources.load with
  | .ok settings => settings
  | .error _ => .standard

end SettingsSources

end LedgerCore
