/-
Voting for candidate forks. At the close of each epoch the stake behind
every candidate is tallied into results stamped with the following epoch.
Over such results, counters tell for how many epochs in a row each
threshold of a schedule has been met.
-/
import LedgerCore.Amount
import LedgerCore.Fork.CandidateId
import Std.Data.ExtTreeMap

namespace LedgerCore

-- ================================================================ results

/-- The share of stake that voted for a candidate, for the epoch it decides on. -/
structure VotingResult where
  epoch : Epoch
  candidate : CandidateId
  /-- The share, in basis points. -/
  stake : UInt16
deriving DecidableEq

-- =============================================================== counters

namespace Threshold

/-- A counter after one more result: a result that fails the threshold
stops the count, one that follows the result before it carries it on, and
one behind a gap begins it anew. -/
def advance (threshold : Threshold) (stake : UInt16) (consecutive : Bool) (count : EpochSpan) :
    EpochSpan :=
  if threshold.isMetBy stake then (if consecutive then count else .none).succ else .none

/-- All counters after one more result. -/
def advanceAll (thresholds : List Threshold) (stake : UInt16) (consecutive : Bool)
    (counts : List EpochSpan) : List EpochSpan :=
  thresholds.zipWith (fun threshold count => threshold.advance stake consecutive count) counts

/-- The counters before any result. -/
def noCounts (thresholds : List Threshold) : List EpochSpan :=
  thresholds.map fun _ => .none

/-- Reads results as long as the last one read is not past an epoch, and
answers the last one read with the counters up to it. -/
def countUpTo (thresholds : List Threshold) (target : Epoch) :
    List EpochSpan → VotingResult → List VotingResult → List EpochSpan × VotingResult
  | counts, last, [] => (counts, last)
  | counts, last, next :: rest =>
      if last.epoch ≤ target then
        countUpTo thresholds target
          (advanceAll thresholds next.stake (next.epoch == last.epoch.next) counts) next rest
      else (counts, last)

/-- For how many epochs in a row, the last being the given one, each
threshold has been met. A history that ends elsewhere is stale and counts
for nothing. -/
def sustained (thresholds : List Threshold) (target : Epoch) (results : List VotingResult) :
    List EpochSpan :=
  match results with
  | [] => noCounts thresholds
  | first :: rest =>
      let (counts, last) :=
        countUpTo thresholds target (advanceAll thresholds first.stake true (noCounts thresholds))
          first rest
      if last.epoch = target then counts else noCounts thresholds

/-- Whether any threshold has been met for as long as it asks. -/
def anyPassed (thresholds : List Threshold) (counts : List EpochSpan) : Bool :=
  (thresholds.zip counts).any fun (threshold, count) => threshold.epochs ≤ count

@[simp] theorem length_noCounts (thresholds : List Threshold) :
    (noCounts thresholds).length = thresholds.length := List.length_map ..

end Threshold

-- ================================================================== tally

/-- A member of the validator set that closes an epoch. -/
structure ValidatorVote where
  power : Amount
  /-- The candidate voted for, if any. -/
  vote : Option CandidateId
deriving DecidableEq

/-- What has been counted of a validator set: all of its power, and the power
behind each candidate that got a vote, both as far as an amount can hold them. -/
structure Poll where
  total : Amount
  behind : Std.ExtTreeMap CandidateId Amount

namespace Poll

/-- Nothing has been counted. -/
def empty : Poll := ⟨.zero, ∅⟩

/-- Counts one more validator. -/
def count (poll : Poll) (validator : ValidatorVote) : Poll where
  total := poll.total.addUpTo validator.power
  behind :=
    match validator.vote with
    | none => poll.behind
    | some id =>
        poll.behind.insert id ((poll.behind.getD id .zero).addUpTo validator.power)

/-- Counts validators one after another. -/
def of (validators : List ValidatorVote) : Poll := validators.foldl count empty

end Poll

namespace VotingResult

/-- Shares below ten percent are not recorded. -/
def leastRecorded : Nat := 1000

/-- A share of the whole in basis points, rounded down. Where the exact
scaling does not fit 128 bits, the whole is scaled instead. -/
def stakeShare (power total : Nat) : Nat :=
  min fullStake
    (if power * fullStake < 0x100000000000000000000000000000000 then power * fullStake / total
      else power / (total / fullStake))

/-- Tallies the votes of the validator set that closes an epoch. Results
are for the next epoch, in ascending order of candidates, and leave out
what is too small to be recorded. -/
def tally (closing : Epoch) (validators : List ValidatorVote) : List VotingResult :=
  let poll := Poll.of validators
  if poll.total.isZero then []
  else
    poll.behind.toList.filterMap fun (candidate, power) =>
      let share := stakeShare power.toNat poll.total.toNat
      if leastRecorded ≤ share then some ⟨closing.next, candidate, UInt16.ofNat share⟩ else none

end VotingResult

end LedgerCore
