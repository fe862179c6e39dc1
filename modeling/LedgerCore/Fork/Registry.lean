/-
The fork registry: a valid schedule of forks. It holds the fixed forks in
order, the first being in force from the start, and at most one candidate
after them. `create` accepts exactly the schedules that make sense.

Each fixed fork is linked to the next one, and the last to the candidate; a
fork can only become active after the one it is linked from, so forks
follow each other in the order of the schedule.
-/
import LedgerCore.Fork.Error
import LedgerCore.Fork.History

namespace LedgerCore

-- =============================================================== validity

namespace CandidateSchedule

/-- Refuses a schedule without a window, without thresholds, or with a
threshold that makes no sense. -/
def validate (schedule : CandidateSchedule) (name : String) : Except ForkConfigError Unit :=
  if schedule.maxEpoch < schedule.minEpoch then
    .error (.invalidCandidateWindow schedule.minEpoch schedule.maxEpoch)
  else if schedule.thresholds.isEmpty then .error (.missingThresholds name)
  else
    match schedule.thresholds.find? fun threshold => !threshold.isValid with
    | some threshold => .error (.invalidThreshold threshold.requiredStake threshold.epochs)
    | none => .ok ()

end CandidateSchedule

/-- A valid schedule of forks carrying rule sets. -/
structure Registry (ρ : Type) where
  genesis : FixedFork ρ
  later : List (FixedFork ρ)
  candidate : Option (CandidateFork ρ)

namespace Registry

variable {ρ : Type}

/-- The first name that occurred before. -/
def firstRepeated? (seen : List String) : List String → Option String
  | [] => none
  | name :: rest => if name ∈ seen then some name else firstRepeated? (name :: seen) rest

/-- Refuses forks that do not come strictly one after the other. -/
def checkIncreasing (previous : Epoch) : List (FixedFork ρ) → Except ForkConfigError Unit
  | [] => .ok ()
  | fork :: rest =>
      if fork.epoch ≤ previous then .error (.nonIncreasingEpochs fork.name fork.epoch previous)
      else checkIncreasing fork.epoch rest

/-- The epoch of the last fork of a chain. -/
def lastEpoch (first : FixedFork ρ) (later : List (FixedFork ρ)) : Epoch :=
  ((first :: later).getLast (List.cons_ne_nil _ _)).epoch

/-- Refuses a candidate that makes no sense behind the fixed forks. -/
def checkCandidate (lastFixed : Epoch) (candidate : CandidateFork ρ) :
    Except ForkConfigError Unit := do
  candidate.schedule.validate candidate.name
  if candidate.schedule.minEpoch ≤ lastFixed then
    throw (.candidateOverlapsFixed candidate.schedule.minEpoch lastFixed)

/-- Builds the registry of a list of forks, the fixed ones in the order they
are given. -/
def create (forks : List (Fork ρ)) : Except ForkConfigError (Registry ρ) := do
  if let some name := firstRepeated? [] (forks.map Fork.name) then
    throw (.duplicateName name)
  let candidates := Fork.candidatesOf forks
  if 1 < candidates.length then throw .multipleCandidates
  match Fork.fixedOf forks with
  | [] => throw .noFixedFork
  | genesis :: later =>
      if genesis.epoch ≠ .genesis then throw (.genesisNotAtZero genesis.name genesis.epoch)
      checkIncreasing genesis.epoch later
      if let some candidate := candidates.head? then
        checkCandidate (lastEpoch genesis later) candidate
      return ⟨genesis, later, candidates.head?⟩

-- ================================================================ look-ups

/-- The fixed forks, in order. -/
def fixed (registry : Registry ρ) : List (FixedFork ρ) := registry.genesis :: registry.later

/-- All forks: the fixed ones in order, then the candidate. -/
def forks (registry : Registry ρ) : List (Fork ρ) :=
  registry.fixed.map .fixed ++ (registry.candidate.map .candidate).toList

/-- The candidate, or else the last fixed fork. -/
def newest (registry : Registry ρ) : Fork ρ :=
  match registry.candidate with
  | some candidate => .candidate candidate
  | none => .fixed (registry.fixed.getLast (List.cons_ne_nil _ _))

/-- The fork of that name. -/
def byName? (registry : Registry ρ) (name : String) : Option (Fork ρ) :=
  registry.forks.find? fun fork => fork.name == name

/-- How the fork after a fixed one becomes active. -/
inductive Link where
  /-- As the fixed fork at that place in the order. -/
  | fixed (index : Nat)
  /-- As the candidate. -/
  | candidate
deriving DecidableEq

/-- The link out of the fixed fork at a place in the order. -/
def linkAt (registry : Registry ρ) (index : Nat) : Option Link :=
  if index + 1 < registry.fixed.length then some (.fixed (index + 1))
  else if registry.candidate.isSome then some .candidate
  else none

/-- The link out of a fork, if any follows it. -/
def link? (registry : Registry ρ) (name : String) : Option Link :=
  (registry.fixed.findIdx? fun fork => fork.name == name).bind registry.linkAt

/-- The fork that was active at an epoch, as a history has it. -/
def activeAt? (registry : Registry ρ) (epoch : Epoch) (activations : Activations) :
    Option (Fork ρ) :=
  (activations.toList.filter fun entry => entry.1 ≤ epoch).getLast?.bind
    fun entry => registry.byName? entry.2

-- ============================================================ diagnostics

/-- The form a link takes inside diagnostics. -/
def linkDiagnostic : Option Link → String
  | none => "None"
  | some (.fixed index) => "Some(Fixed(" ++ index.repr ++ "))"
  | some .candidate => "Some(Candidate)"

/-- The form a registry takes inside diagnostics. -/
def diagnostic (registry : Registry ρ) : String :=
  let fixed := registry.fixed.map fun fork => (Fork.fixed fork).diagnostic
  let candidate := match registry.candidate with
    | none => "None"
    | some fork =>
        "Some((" ++ (Fork.candidate fork).diagnostic ++ ", " ++ fork.id.diagnostic ++ "))"
  let links := (List.range registry.fixed.length).map fun index =>
    linkDiagnostic (registry.linkAt index)
  "Forks \x7b fixed: [" ++ ", ".intercalate fixed ++ "], candidate: " ++ candidate
    ++ ", links: [" ++ ", ".intercalate links ++ "] \x7d"

end Registry

end LedgerCore
