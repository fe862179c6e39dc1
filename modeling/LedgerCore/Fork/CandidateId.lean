/-
Candidate ids: what validators vote for. The id of a candidate is the
digest of its name and its whole schedule, so a candidate that is changed in
any way has a new id, and votes cast for it before no longer count. What is
hashed is `encoding`, in which every part either has a fixed width or is
preceded by its length.
-/
import LedgerCore.Fork.Schedule
import LedgerCore.Hash.Blake3

namespace LedgerCore

/-- The name of a candidate fork in the validators' votes. -/
structure CandidateId where
  hash : Hash
deriving DecidableEq

namespace CandidateId

-- =============================================================== encoding

/-- A threshold: two bytes of stake and eight of epochs. -/
def encodeThreshold (threshold : Threshold) : Bytes :=
  Bytes.littleEndian 2 threshold.requiredStake.toNat
    ++ Bytes.littleEndian 8 threshold.epochs.toNat

/-- A name and a schedule as one byte string. -/
def encoding (name : String) (schedule : CandidateSchedule) : Bytes :=
  let utf8 := name.toUTF8.toList
  Bytes.littleEndian 8 utf8.length ++ utf8
    ++ Bytes.littleEndian 8 schedule.minEpoch.toNat
    ++ Bytes.littleEndian 8 schedule.maxEpoch.toNat
    ++ Bytes.littleEndian 8 schedule.thresholds.length
    ++ schedule.thresholds.flatMap encodeThreshold

/-- The id of a candidate of that name and schedule. -/
def compute (name : String) (schedule : CandidateSchedule) : CandidateId :=
  ⟨Blake3.digest (encoding name schedule)⟩

-- =================================================================== text

/-- Hexadecimal text. -/
def text (id : CandidateId) : String := id.hash.text

/-- The form an id takes inside diagnostics. -/
def diagnostic (id : CandidateId) : String := "CandidateForkId(" ++ id.text ++ ")"

-- ================================================================== order

instance : Inhabited CandidateId := ⟨⟨Hash.zero⟩⟩
instance : Ord CandidateId := ⟨compareOn hash⟩

@[ext] theorem ext {a b : CandidateId} (h : a.hash = b.hash) : a = b := by
  cases a; cases b; simp_all

instance : Std.TransOrd CandidateId := inferInstanceAs (Std.TransCmp (compareOn hash))

instance : Std.LawfulEqOrd CandidateId where
  eq_of_compare h := ext (Std.LawfulEqOrd.eq_of_compare (α := Hash) h)

end CandidateId

/-- The id of a candidate fork. -/
def CandidateFork.id {ρ : Type} (fork : CandidateFork ρ) : CandidateId :=
  .compute fork.name fork.schedule

/-- The id of a fork that is a candidate. -/
def Fork.candidateId? {ρ : Type} : Fork ρ → Option CandidateId
  | fixed _ => none
  | candidate fork => some fork.id

end LedgerCore
