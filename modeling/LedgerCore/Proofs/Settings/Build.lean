/-
Settings that validate build. Validation builds the registry of a schedule
with rule sets that say nothing, long before the real ones are at hand. That
its answer holds for the real ones rests on two facts, one for each half of
`ForkSettings.build`.

# Names come first

The names of a schedule are looked up in one go along the schedule
(`forks_eq`), before any check. The first one without a rule set is reported
(`forks_of_unresolved`), and where there is none what comes out is the
schedule, each fork with the rule set of its name (`furnished_of_forks`).

# Rule sets are not looked at

The registry of forks with other rules is the registry of the forks, with the
other rules, and is refused for the same reason: `Registry.create_map`, check
by check. Replacing the real rule sets by ones that say nothing therefore makes
the two builds the same (`build_blank_of_forks`).
-/
import LedgerCore.Proofs.Fork.Validity
import LedgerCore.Settings

namespace LedgerCore

variable {ρ σ : Type}

-- =============================================================== other rule sets

/-- The fork with other rules. -/
def FixedFork.mapRules (f : ρ → σ) (fork : FixedFork ρ) : FixedFork σ :=
  ⟨fork.name, fork.epoch, f fork.rules⟩

/-- The fork with other rules. -/
def CandidateFork.mapRules (f : ρ → σ) (fork : CandidateFork ρ) : CandidateFork σ :=
  ⟨fork.name, fork.schedule, f fork.rules⟩

namespace Fork

/-- The fork with other rules. -/
def mapRules (f : ρ → σ) : Fork ρ → Fork σ
  | fixed fork => fixed (fork.mapRules f)
  | candidate fork => candidate (fork.mapRules f)

variable (f : ρ → σ) (forks : List (Fork ρ))

/-- Other rules leave the names. -/
theorem names_mapRules : (forks.map (mapRules f)).map name = forks.map name := by
  rw [List.map_map]
  refine List.map_congr_left fun fork _ => ?_
  cases fork <;> rfl

/-- The fixed forks among others stay the fixed ones, with their new
rules. -/
theorem fixedOf_mapRules :
    fixedOf (forks.map (mapRules f)) = (fixedOf forks).map (FixedFork.mapRules f) := by
  induction forks with
  | nil => rfl
  | cons fork rest ih =>
      cases fork with
      | fixed fork => exact congrArg (fork.mapRules f :: ·) ih
      | candidate fork => exact ih

theorem candidatesOf_mapRules :
    candidatesOf (forks.map (mapRules f)) = (candidatesOf forks).map (CandidateFork.mapRules f) := by
  induction forks with
  | nil => rfl
  | cons fork rest ih =>
      cases fork with
      | fixed fork => exact ih
      | candidate fork => exact congrArg (fork.mapRules f :: ·) ih

end Fork

namespace Registry

/-- The registry with other rules. -/
def mapRules (f : ρ → σ) (registry : Registry ρ) : Registry σ :=
  ⟨registry.genesis.mapRules f, registry.later.map (FixedFork.mapRules f),
    registry.candidate.map (CandidateFork.mapRules f)⟩

variable (f : ρ → σ)

/-- Whether epochs increase does not depend on rules. -/
theorem checkIncreasing_map (previous : Epoch) (forks : List (FixedFork ρ)) :
    checkIncreasing previous (forks.map (FixedFork.mapRules f)) = checkIncreasing previous forks := by
  induction forks generalizing previous with
  | nil => rfl
  | cons fork rest ih =>
      rw [List.map_cons, checkIncreasing, checkIncreasing, ih]
      rfl

theorem lastEpoch_map (first : FixedFork ρ) (later : List (FixedFork ρ)) :
    lastEpoch (first.mapRules f) (later.map (FixedFork.mapRules f)) = lastEpoch first later := by
  simp only [lastEpoch, ← List.map_cons, List.getLast_map]
  rfl

/-- No check looks at the rules: a registry of forks with other rules is the
registry of the forks, with the other rules, and is refused for the same
reason. -/
theorem create_map (forks : List (Fork ρ)) :
    create (forks.map (Fork.mapRules f)) = (create forks).map (mapRules f) := by
  unfold create
  simp only [Fork.names_mapRules, Fork.fixedOf_mapRules, Fork.candidatesOf_mapRules,
    List.length_map, List.head?_map, bind, Except.bind, pure, Except.pure, throw, throwThe,
    MonadExceptOf.throw]
  -- check by check: none of them looks at rules
  cases firstRepeated? [] (forks.map Fork.name) with
  | some name => rfl
  | none =>
  dsimp only
  by_cases many : 1 < (Fork.candidatesOf forks).length
  · rw [if_pos many, if_pos many]
    rfl
  rw [if_neg many, if_neg many]
  cases Fork.fixedOf forks with
  | nil => rfl
  | cons genesis later =>
  have same : (genesis.mapRules f).epoch = genesis.epoch := rfl
  rw [List.map_cons]
  dsimp only
  rw [checkIncreasing_map, same, lastEpoch_map]
  by_cases starts : genesis.epoch ≠ .genesis
  · rw [if_pos starts, if_pos starts]
    rfl
  rw [if_neg starts, if_neg starts]
  cases checkIncreasing genesis.epoch later with
  | error cause => rfl
  | ok increasing =>
  dsimp only
  cases (Fork.candidatesOf forks).head? with
  | none => rfl
  | some candidate =>
  have checked : checkCandidate (lastEpoch genesis later) (candidate.mapRules f)
      = checkCandidate (lastEpoch genesis later) candidate := rfl
  rw [Option.map_some]
  dsimp only
  rw [checked]
  cases checkCandidate (lastEpoch genesis later) candidate with
  | error cause => rfl
  | ok accepted => rfl

end Registry

-- ============================================================ resolving the names

/-- The fork of some settings, with a rule set that says nothing. -/
def FixedForkSettings.blank (fork : FixedForkSettings) : FixedFork Unit :=
  ⟨fork.name, fork.epoch, ()⟩

/-- The fork of some settings, with a rule set that says nothing. -/
def CandidateSettings.blank (fork : CandidateSettings) : CandidateFork Unit :=
  ⟨fork.name, fork.schedule, ()⟩

namespace ForkSettings

/-- The forks of a schedule, with rule sets that say nothing. -/
def blank (settings : ForkSettings) : List (Fork Unit) :=
  (settings.fixed.map fun fork => .fixed fork.blank)
    ++ (settings.candidate.map fun fork => .candidate fork.blank).toList

/-- The names of a schedule: of the fixed forks in order, then of the candidate. -/
def names (settings : ForkSettings) : List String :=
  settings.fixed.map FixedForkSettings.name ++ (settings.candidate.map CandidateSettings.name).toList

/-- A fork with the rule set of its name. -/
def furnish (resolve : String → Option ρ) (fork : Fork Unit) : Except SettingsError (Fork ρ) :=
  (rulesOf resolve fork.name).map fun rules => fork.mapRules fun _ => rules

variable {settings : ForkSettings} {resolve : String → Option ρ}

theorem names_blank (settings : ForkSettings) : settings.blank.map Fork.name = settings.names := by
  rw [blank, names, List.map_append, List.map_map]
  cases settings.candidate <;> rfl

theorem furnish_fixed (fork : FixedForkSettings) :
    furnish resolve (.fixed fork.blank)
      = (rulesOf resolve fork.name).map fun rules => .fixed ⟨fork.name, fork.epoch, rules⟩ := rfl

theorem furnish_candidate (fork : CandidateSettings) :
    furnish resolve (.candidate fork.blank)
      = (rulesOf resolve fork.name).map fun rules =>
          .candidate ⟨fork.name, fork.schedule, rules⟩ := rfl

/-- The names are looked up in one go, along the schedule. -/
theorem forks_eq (settings : ForkSettings) (resolve : String → Option ρ) :
    settings.forks resolve = settings.blank.mapM (furnish resolve) := by
  have furnished : (fun fork : FixedForkSettings => do
        return Fork.fixed ⟨fork.name, fork.epoch, ← rulesOf resolve fork.name⟩)
      = furnish resolve ∘ fun fork => .fixed fork.blank := by
    funext fork
    rw [Function.comp_apply, furnish_fixed]
    cases rulesOf resolve fork.name <;> rfl
  rw [forks, blank, List.mapM_append, List.mapM_map, furnished]
  refine congrArg (_ >>= ·) (funext fun fixed => ?_)
  cases settings.candidate with
  | none =>
      rw [Option.map_none, Option.toList_none, List.mapM_nil, pure_bind, List.append_nil]
  | some fork =>
      rw [Option.map_some, Option.toList_some, List.mapM_cons, List.mapM_nil,
        furnish_candidate]
      dsimp only
      cases rulesOf resolve fork.name <;> rfl

/-- Of the names without a rule set, the first in the order of the schedule is
reported. -/
theorem forks_of_unresolved {name : String}
    (first : settings.names.find? (fun name => (resolve name).isNone) = some name) :
    settings.forks resolve = .error (.unknownRuleSet name) := by
  rw [← names_blank, List.find?_map] at first
  obtain ⟨fork, found, rfl⟩ := Option.map_eq_some_iff.mp first
  rw [forks_eq]
  generalize settings.blank = forks at found
  induction forks with
  | nil => cases found
  | cons other rest ih =>
      rw [List.mapM_cons, furnish, rulesOf]
      cases resolved : resolve other.name with
      | none =>
          rw [List.find?_cons_of_pos (by simp [resolved])] at found
          cases found
          rfl
      | some rules =>
          rw [List.find?_cons_of_neg (by simp [resolved])] at found
          rw [ih found]
          rfl

/-- Where a list of forks comes out, it is the schedule, each fork with the rule
set of its name. -/
theorem furnished_of_forks {forks : List (Fork ρ)} (h : settings.forks resolve = .ok forks) :
    forks.map (Fork.mapRules fun _ => ()) = settings.blank
      ∧ ∀ fork ∈ forks, resolve fork.name = some fork.rules := by
  rw [forks_eq] at h
  generalize settings.blank = blank at h ⊢
  induction blank generalizing forks with
  | nil =>
      cases h
      exact ⟨rfl, nofun⟩
  | cons fork rest ih =>
      rw [List.mapM_cons, furnish, rulesOf] at h
      cases resolved : resolve fork.name with
      -- a name without rules is where it stops
      | none =>
          rw [resolved] at h
          cases h
      | some rules =>
          rw [resolved] at h
          cases furnished : rest.mapM (furnish resolve) with
          | error cause =>
              rw [furnished] at h
              cases h
          | ok others =>
              rw [furnished] at h
              cases h
              obtain ⟨same, each⟩ := ih furnished
              refine ⟨?_, List.forall_mem_cons.mpr ⟨?_, each⟩⟩
              · rw [List.map_cons, same]
                cases fork <;> rfl
              · cases fork <;> exact resolved

/-- If all names can be resolved, the forks can be made. -/
theorem exists_forks (resolved : ∀ name ∈ settings.names, (resolve name).isSome) :
    ∃ forks, settings.forks resolve = .ok forks := by
  rw [← names_blank, List.forall_mem_map] at resolved
  rw [forks_eq]
  generalize settings.blank = blank at resolved
  induction blank with
  | nil => exact ⟨[], rfl⟩
  | cons fork rest ih =>
      obtain ⟨here, there⟩ := List.forall_mem_cons.mp resolved
      obtain ⟨rules, hrules⟩ := Option.isSome_iff_exists.mp here
      obtain ⟨others, hothers⟩ := ih there
      refine ⟨fork.mapRules (fun _ => rules) :: others, ?_⟩
      rw [List.mapM_cons, furnish, rulesOf, hrules, hothers]
      rfl

-- ================================================================ the registry

/-- Building is creating the registry of the forks that come out. -/
theorem build_of_forks {forks : List (Fork ρ)} (h : settings.forks resolve = .ok forks) :
    settings.build resolve = (Registry.create forks).mapError .invalidForks := by
  rw [build, h]
  dsimp only [bind, Except.bind]
  cases Registry.create forks <;> rfl

/-- With rule sets that say nothing for all names alike, nothing is refused for
want of one. -/
theorem build_blank (settings : ForkSettings) :
    settings.build (fun _ => some ()) = (Registry.create settings.blank).mapError .invalidForks := by
  obtain ⟨forks, hforks⟩ : ∃ forks, settings.forks (fun _ => some ()) = .ok forks :=
    exists_forks fun _ _ => rfl
  have same : forks.map (Fork.mapRules fun _ => ()) = forks := by
    conv_rhs => rw [← List.map_id forks]
    refine List.map_congr_left fun fork _ => ?_
    cases fork <;> rfl
  rw [build_of_forks hforks, ← (furnished_of_forks hforks).1, same]

/-- Where all names are resolved, building is the same as with rule sets that
say nothing, but for the rule sets. -/
theorem build_blank_of_forks {forks : List (Fork ρ)} (h : settings.forks resolve = .ok forks) :
    settings.build (fun _ => some ())
      = (settings.build resolve).map (Registry.mapRules fun _ => ()) := by
  rw [build_blank, build_of_forks h, ← (furnished_of_forks h).1, Registry.create_map]
  cases Registry.create forks <;> rfl

/-- Nothing is checked before all names have a rule set. -/
theorem build_of_unresolved {name : String}
    (first : settings.names.find? (fun name => (resolve name).isNone) = some name) :
    settings.build resolve = .error (.unknownRuleSet name) := by
  rw [build, forks_of_unresolved first]
  rfl

/-- What was built had all its names resolved. -/
theorem resolved_of_build {registry : Registry ρ} (built : settings.build resolve = .ok registry) :
    ∀ name ∈ settings.names, (resolve name).isSome := by
  cases first : settings.names.find? (fun name => (resolve name).isNone) with
  | some missing =>
      rw [build_of_unresolved first] at built
      cases built
  | none => simpa [Option.isSome_iff_ne_none] using first

/-- Once all names are resolved, validation says what building will say. -/
theorem validate_of_resolved (resolved : ∀ name ∈ settings.names, (resolve name).isSome) :
    settings.validate = (settings.build resolve).map fun _ => () := by
  obtain ⟨forks, hforks⟩ := exists_forks resolved
  have dry : settings.validate = (settings.build fun _ => some ()).map fun _ => () := by
    rw [validate]
    cases settings.build fun _ => some () <;> rfl
  rw [dry, build_blank_of_forks hforks]
  cases settings.build resolve <;> rfl

/-- A registry holds the schedule of settings, in order, each fork with the rule
set of its name. -/
structure Configures (settings : ForkSettings) (resolve : String → Option ρ)
    (registry : Registry ρ) : Prop where
  fixed : registry.fixed.map (fun fork => (fork.name, fork.epoch))
    = settings.fixed.map fun fork => (fork.name, fork.epoch)
  candidate : registry.candidate.map (fun fork => (fork.name, fork.schedule))
    = settings.candidate.map fun fork => (fork.name, fork.schedule)
  rules : ∀ fork ∈ registry.forks, resolve fork.name = some fork.rules
  /-- Whatever the rule sets are, the candidate has the id of what is configured. -/
  id : registry.candidate.map CandidateFork.id
    = settings.candidate.map fun fork => .compute fork.name fork.schedule

/-- The fixed forks of settings are those listed as fixed. -/
theorem fixedOf_blank (settings : ForkSettings) :
    Fork.fixedOf settings.blank = settings.fixed.map FixedForkSettings.blank := by
  rw [blank, Fork.fixedOf]
  induction settings.fixed with
  | nil => cases settings.candidate <;> rfl
  | cons fork rest ih => exact congrArg (fork.blank :: ·) ih

/-- The candidate of settings is the one there is, if any. -/
theorem candidatesOf_blank (settings : ForkSettings) :
    Fork.candidatesOf settings.blank = (settings.candidate.map CandidateSettings.blank).toList := by
  rw [blank, Fork.candidatesOf]
  induction settings.fixed with
  | nil => cases settings.candidate <;> rfl
  | cons fork rest ih => exact ih

/-- A registry made of the forks that come out holds the schedule. -/
theorem configures_of_forks {forks : List (Fork ρ)} {registry : Registry ρ}
    (h : settings.forks resolve = .ok forks) (made : registry.MadeOf forks) :
    settings.Configures resolve registry := by
  obtain ⟨same, each⟩ := furnished_of_forks h
  have fixed : registry.fixed.map (FixedFork.mapRules fun _ => ())
      = settings.fixed.map FixedForkSettings.blank := by
    rw [← made.fixed, ← Fork.fixedOf_mapRules, same, fixedOf_blank]
  have candidates : (registry.candidate.map (CandidateFork.mapRules fun _ => ())).toList
      = (settings.candidate.map CandidateSettings.blank).toList := by
    rw [Option.toList_map, ← made.candidates, ← Fork.candidatesOf_mapRules, same,
      candidatesOf_blank]
  have candidate : registry.candidate.map (CandidateFork.mapRules fun _ => ())
      = settings.candidate.map CandidateSettings.blank := by
    simpa using congrArg List.head? candidates
  refine ⟨?_, ?_, fun fork hfork => each fork (made.perm.mem_iff.mp hfork), ?_⟩
  · have described := congrArg (List.map fun fork => (fork.name, fork.epoch)) fixed
    rw [List.map_map, List.map_map] at described
    exact described
  · have described := congrArg (Option.map fun fork => (fork.name, fork.schedule)) candidate
    rw [Option.map_map, Option.map_map] at described
    exact described
  · have computed := congrArg (Option.map CandidateFork.id) candidate
    rw [Option.map_map, Option.map_map] at computed
    exact computed

/-- Settings build with the rule sets there are if every name of the schedule
has one and the settings validate, and not otherwise. The first name without
one is reported before anything else; where there is none, what validation
reports is reported, an invalid schedule. The registry that is built is the one
that was validated, and holds the schedule, each fork with the rule set of its
name. -/
theorem validated_settings_build (settings : ForkSettings) (resolve : String → Option ρ) :
    ((∃ registry, settings.build resolve = .ok registry)
        ↔ (∀ name ∈ settings.names, (resolve name).isSome) ∧ settings.validate = .ok ())
      ∧ (∀ name, settings.names.find? (fun name => (resolve name).isNone) = some name →
          settings.build resolve = .error (.unknownRuleSet name))
      ∧ ((∀ name ∈ settings.names, (resolve name).isSome) →
          ∀ error, settings.validate = .error error →
            settings.build resolve = .error error ∧ ∃ cause, error = .invalidForks cause)
      ∧ ∀ registry, settings.build resolve = .ok registry →
          settings.Configures resolve registry
            ∧ settings.build (fun _ => some ()) = .ok (registry.mapRules fun _ => ()) := by
  refine ⟨⟨?_, ?_⟩, fun name => build_of_unresolved, ?_, ?_⟩
  · -- what was built was resolved, and the dry run does the same
    rintro ⟨registry, built⟩
    have resolved := resolved_of_build built
    refine ⟨resolved, ?_⟩
    rw [validate_of_resolved resolved, built]
    rfl
  · rintro ⟨resolved, valid⟩
    rw [validate_of_resolved resolved] at valid
    cases built : settings.build resolve with
    | ok registry => exact ⟨registry, rfl⟩
    | error cause =>
        rw [built] at valid
        cases valid
  · -- with all names resolved, both runs are refused for the schedule
    intro resolved error refused
    obtain ⟨forks, hforks⟩ := exists_forks resolved
    have built := build_of_forks hforks
    rw [validate_of_resolved resolved, built] at refused
    rw [built]
    cases created : Registry.create forks with
    | ok registry =>
        rw [created] at refused
        cases refused
    | error cause =>
        rw [created] at refused
        cases refused
        exact ⟨rfl, cause, rfl⟩
  · intro registry built
    obtain ⟨forks, hforks⟩ := exists_forks (resolved_of_build built)
    have dry := build_blank_of_forks hforks
    have made := built
    rw [build_of_forks hforks] at made
    cases created : Registry.create forks with
    | error cause =>
        rw [created] at made
        cases made
    | ok other =>
        rw [created] at made
        cases made
        rw [built] at dry
        exact ⟨configures_of_forks hforks (Registry.create_eq_ok_iff.mp created).2, dry⟩

/-- A candidate for two thirds of the stake. -/
def twoThirds : CandidateSettings :=
  ⟨"third", .clamp 20, .clamp 40, [⟨6700, .clamp 4⟩]⟩

/-- Two forks one after the other, then a candidate. -/
def inOrder : ForkSettings := ⟨[⟨"first", .genesis⟩, ⟨"second", .clamp 10⟩], some twoThirds⟩

/-- Two forks at once, then a candidate. -/
def atOnce : ForkSettings := ⟨[⟨"first", .genesis⟩, ⟨"second", .genesis⟩], some twoThirds⟩

/-- Rule sets for the first fork alone. -/
def firstAlone (name : String) : Option Nat := if name = "first" then some 1 else none

/-- Of two names without a rule set the first is reported, although the
schedule is invalid too. With rule sets for all names what validation reports
is reported, and a valid schedule builds. -/
theorem names_reported_before_schedule :
    atOnce.names.find? (fun name => (firstAlone name).isNone) = some "second"
      ∧ atOnce.build firstAlone = .error (.unknownRuleSet "second")
      ∧ atOnce.validate = .error (.invalidForks (.nonIncreasingEpochs "second" .genesis .genesis))
      ∧ atOnce.build (fun _ => some 1)
        = .error (.invalidForks (.nonIncreasingEpochs "second" .genesis .genesis))
      ∧ inOrder.validate = .ok ()
      ∧ ∃ registry, inOrder.build (fun _ => some 1) = .ok registry
        ∧ inOrder.Configures (fun _ => some 1) registry := by
  have refused : atOnce.validate
      = .error (.invalidForks (.nonIncreasingEpochs "second" .genesis .genesis)) := rfl
  obtain ⟨-, unresolved, -, -⟩ := validated_settings_build atOnce firstAlone
  obtain ⟨-, -, clash, -⟩ := validated_settings_build atOnce fun _ => some 1
  obtain ⟨built, -, -, configures⟩ := validated_settings_build inOrder fun _ => some 1
  obtain ⟨registry, hregistry⟩ := built.mpr ⟨fun _ _ => rfl, rfl⟩
  exact ⟨by decide, unresolved _ (by decide), refused, (clash (fun _ _ => rfl) _ refused).1, rfl,
    registry, hregistry, (configures registry hregistry).1⟩

end ForkSettings

end LedgerCore
