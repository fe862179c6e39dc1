/-
The activation history: which fork became active at which epoch, and the
voting results of every epoch. It has to outlive restarts, so the registry
works on it through `ActivationStore`, any of whose operations may fail;
`History` is the store that is held in memory.
-/
import LedgerCore.Fork.Error
import LedgerCore.Fork.Vote
import Std.Data.ExtTreeMap

namespace LedgerCore

-- ================================================================== store

/-- The recorded activations: the name of the fork for each epoch. -/
abbrev Activations := Std.ExtTreeMap Epoch String

/-- Something that keeps an activation history. -/
class ActivationStore (σ : Type) where
  /-- Every recorded activation. -/
  activations : σ → Except StoreError Activations × σ
  /-- Records that a fork became active. -/
  recordActivation : Epoch → String → σ → Except StoreError Unit × σ
  /-- Records voting results, in place of earlier ones for the same candidate
  and epoch. -/
  recordVotes : List VotingResult → σ → Except StoreError Unit × σ
  /-- The results of a candidate from one epoch on and before another, in
  ascending order of epochs. -/
  votes : (start stop : Epoch) → CandidateId → σ → Except StoreError (List VotingResult) × σ

-- ================================================================ history

/-- What a voting result is recorded under: by candidate, then by epoch. -/
structure VoteKey where
  candidate : CandidateId
  epoch : Epoch
deriving DecidableEq

namespace VoteKey

/-- By candidate, then by epoch. -/
def order : VoteKey → VoteKey → Ordering :=
  compareLex (compareOn candidate) (compareOn epoch)

instance : Ord VoteKey := ⟨order⟩

instance : Std.TransOrd VoteKey := by
  show Std.TransCmp order
  unfold order
  infer_instance

instance : Std.LawfulEqOrd VoteKey where
  eq_of_compare {a b} h := by
    obtain ⟨hc, he⟩ := compareLex_eq_eq.mp (show order a b = .eq from h)
    obtain ⟨ca, ea⟩ := a
    obtain ⟨cb, eb⟩ := b
    cases Std.LawfulEqOrd.eq_of_compare (α := CandidateId) hc
    cases Std.LawfulEqOrd.eq_of_compare (α := Epoch) he
    rfl

end VoteKey

/-- An activation history held in memory. -/
structure History where
  activations : Activations
  /-- The share of stake, in basis points, by candidate and epoch. -/
  shares : Std.ExtTreeMap VoteKey UInt16

namespace History

/-- A history without any record. -/
def empty : History := ⟨∅, ∅⟩

/-- The activations in ascending order of epochs. -/
def entries (history : History) : List (Epoch × String) := history.activations.toList

/-- Records an activation. An epoch keeps the fork it has. -/
def recordActivation (history : History) (epoch : Epoch) (name : String) :
    Except StoreError History :=
  match history.activations[epoch]? with
  | some existing =>
      if existing = name then .ok history
      else .error ⟨"epoch " ++ epoch.text ++ " already activated fork '" ++ existing ++ "'"⟩
  | none => .ok { history with activations := history.activations.insert epoch name }

/-- Records one voting result. -/
def recordVote (history : History) (result : VotingResult) : History :=
  { history with
    shares := history.shares.insert ⟨result.candidate, result.epoch⟩ result.stake }

/-- Records voting results in order. -/
def recordVotes (history : History) (results : List VotingResult) : History :=
  results.foldl recordVote history

/-- The results of a candidate from one epoch on and before another. -/
def votes (history : History) (start stop : Epoch) (candidate : CandidateId) :
    List VotingResult :=
  (history.shares.toList.filter fun (key, _) =>
      key.candidate = candidate ∧ start ≤ key.epoch ∧ key.epoch < stop).map
    fun (key, stake) => ⟨key.epoch, key.candidate, stake⟩

instance : ActivationStore History where
  activations history := (.ok history.activations, history)
  recordActivation epoch name history :=
    match history.recordActivation epoch name with
    | .ok after => (.ok (), after)
    | .error cause => (.error cause, history)
  recordVotes results history := (.ok (), history.recordVotes results)
  votes start stop candidate history := (.ok (history.votes start stop candidate), history)

-- =================================================================== laws

@[ext] theorem ext {a b : History} (ha : a.activations = b.activations)
    (hs : a.shares = b.shares) : a = b := by
  cases a; cases b; simp_all

/-- A range query answers what is recorded in the range, and nothing else. -/
theorem mem_votes_iff {history : History} {start stop : Epoch} {candidate : CandidateId}
    {result : VotingResult} :
    result ∈ history.votes start stop candidate ↔
      result.candidate = candidate ∧ start ≤ result.epoch ∧ result.epoch < stop
        ∧ history.shares[(⟨candidate, result.epoch⟩ : VoteKey)]? = some result.stake := by
  obtain ⟨epoch, owner, stake⟩ := result
  simp only [votes, List.mem_map, List.mem_filter, Prod.exists, decide_eq_true_eq,
    Std.ExtTreeMap.mem_toList_iff_getElem?_eq_some, VotingResult.mk.injEq]
  constructor
  · rintro ⟨⟨c, e⟩, s, ⟨hget, hc, hstart, hstop⟩, rfl, rfl, rfl⟩
    exact ⟨hc, hstart, hstop, hc ▸ hget⟩
  · rintro ⟨rfl, hstart, hstop, hget⟩
    exact ⟨⟨owner, epoch⟩, stake, ⟨hget, rfl, hstart, hstop⟩, rfl, rfl, rfl⟩

/-- Recording a result overwrites that result and no other. -/
theorem shares_recordVote (history : History) (result : VotingResult) (key : VoteKey) :
    (history.recordVote result).shares[key]?
      = if (⟨result.candidate, result.epoch⟩ : VoteKey) = key then some result.stake
        else history.shares[key]? := by
  simp [recordVote, Std.ExtTreeMap.getElem?_insert]

@[simp] theorem activations_recordVotes (history : History) (results : List VotingResult) :
    (history.recordVotes results).activations = history.activations := by
  induction results generalizing history with
  | nil => rfl
  | cons result rest ih => exact ih (history.recordVote result)

end History

end LedgerCore
