/-
What a range query of the recorded votes answers: for each epoch of the range
the result that was written last for the candidate, and nothing else. However
the results came in batches, and whatever was written for other candidates in
between, the answer is the same as from one list of all that was written
(`share?_written`).

# One map for all candidates

The results of all candidates are kept in one map, ordered by candidate first
and by epoch within a candidate. So the results of a range lie side by side:
they are what is met from the key of the first epoch on and before that of the
epoch behind the last (`votes_eq_between`). Candidates whose ids are neighbours
have their records next to each other, but none of them within these bounds
(`between_iff`); a range that ends where it begins, or before, has the keys the
wrong way round and nothing between them.
-/
import LedgerCore.Proofs.Fork.Due
import Mathlib.Data.List.Induction

namespace LedgerCore

-- ================================================================ sorted lists

/-- Where what fails a condition is followed by nothing that meets it, those
that meet it are the first ones. -/
theorem takeWhile_eq_filter {α : Type} {p : α → Bool} {l : List α}
    (h : l.Pairwise fun a b => p b = true → p a = true) : l.takeWhile p = l.filter p := by
  induction l with
  | nil => rfl
  | cons a rest ih =>
      obtain ⟨hfirst, hrest⟩ := List.pairwise_cons.mp h
      by_cases ha : p a
      · rw [List.takeWhile_cons_of_pos ha, List.filter_cons_of_pos ha, ih hrest]
      · rw [List.takeWhile_cons_of_neg ha, List.filter_cons_of_neg ha]
        refine (List.filter_eq_nil_iff.mpr fun b hb hpb => ha ?_).symm
        exact hfirst b hb hpb

/-- In the same case, those that fail it are what is left behind the first ones. -/
theorem dropWhile_eq_filter {α : Type} {p : α → Bool} {l : List α}
    (h : l.Pairwise fun a b => p b = true → p a = true) :
    l.dropWhile p = l.filter fun a => !p a := by
  induction l with
  | nil => rfl
  | cons a rest ih =>
      obtain ⟨hfirst, hrest⟩ := List.pairwise_cons.mp h
      by_cases ha : p a
      · rw [List.dropWhile_cons_of_pos ha, List.filter_cons_of_neg (by simpa using ha), ih hrest]
      · rw [List.dropWhile_cons_of_neg ha, List.filter_cons_of_pos (by simpa using ha)]
        congr 1
        refine (List.filter_eq_self.mpr fun b hb => ?_).symm
        rw [Bool.not_eq_true']
        exact Bool.eq_false_iff.mpr fun hpb => ha (hfirst b hb hpb)

-- ======================================================================== keys

namespace VoteKey

/-- One key comes before another in the order of the map. -/
def Before (key other : VoteKey) : Prop := compare key other = .lt

instance (key other : VoteKey) : Decidable (key.Before other) :=
  inferInstanceAs (Decidable (compare key other = .lt))

theorem Before.trans {a b c : VoteKey} (h : a.Before b) (h' : b.Before c) : a.Before c :=
  Std.TransCmp.lt_trans h h'

/-- By candidate, and for one candidate by epoch. -/
theorem before_iff {key other : VoteKey} :
    key.Before other ↔ compare key.candidate other.candidate = .lt
      ∨ key.candidate = other.candidate ∧ key.epoch < other.epoch := by
  obtain ⟨id, epoch⟩ := key
  obtain ⟨id', epoch'⟩ := other
  show (compare id id').then (compare epoch.toNat epoch'.toNat) = .lt
    ↔ compare id id' = .lt ∨ id = id' ∧ epoch.toNat < epoch'.toNat
  rw [Ordering.then_eq_lt, Std.LawfulEqOrd.compare_eq_iff_eq, Nat.compare_eq_lt]

/-- The keys from that of an epoch of a candidate on and before that of another
epoch are those of the candidate's epochs in between. -/
theorem between_iff {key : VoteKey} {id : CandidateId} {start stop : Epoch} :
    ¬ key.Before ⟨id, start⟩ ∧ key.Before ⟨id, stop⟩
      ↔ key.candidate = id ∧ start ≤ key.epoch ∧ key.epoch < stop := by
  simp only [before_iff, Epoch.lt_def, Epoch.le_def]
  constructor
  · rintro ⟨hstart, hlt | ⟨hid, hstop⟩⟩
    · exact absurd (.inl hlt) hstart
    · refine ⟨hid, ?_, hstop⟩
      by_contra hlt
      exact hstart (.inr ⟨hid, by omega⟩)
  · rintro ⟨hid, hstart, hstop⟩
    refine ⟨?_, .inr ⟨hid, hstop⟩⟩
    rintro (hlt | ⟨-, hlt⟩)
    · rw [hid, Std.ReflOrd.compare_self] at hlt
      cases hlt
    · omega

end VoteKey

namespace History

-- ===================================================================== writing

/-- The last of some results that is for that candidate and that epoch. -/
def lastWritten? (results : List VotingResult) (id : CandidateId) (epoch : Epoch) :
    Option VotingResult :=
  (results.filter fun result => result.candidate = id ∧ result.epoch = epoch).getLast?

/-- A store held in memory that got results batch by batch. -/
def written (batches : List (List VotingResult)) : History :=
  batches.foldl (fun history results => (ActivationStore.recordVotes results history).2) .empty

/-- What is written last answers for its candidate and epoch. -/
theorem lastWritten?_concat (results : List VotingResult) (result : VotingResult)
    (id : CandidateId) (epoch : Epoch) :
    lastWritten? (results ++ [result]) id epoch
      = if result.candidate = id ∧ result.epoch = epoch then some result
        else lastWritten? results id epoch := by
  rw [lastWritten?, List.filter_append]
  by_cases h : result.candidate = id ∧ result.epoch = epoch
  · rw [List.filter_cons_of_pos (by simpa using h), if_pos h]
    simp
  · rw [List.filter_cons_of_neg (by simpa using h), if_neg h]
    simp [lastWritten?]

/-- What was written last was written, for that candidate and epoch. -/
theorem of_lastWritten? {results : List VotingResult} {id : CandidateId} {epoch : Epoch}
    {result : VotingResult} (h : lastWritten? results id epoch = some result) :
    result ∈ results ∧ result.candidate = id ∧ result.epoch = epoch := by
  simpa using List.mem_filter.mp (List.mem_of_getLast? h)

/-- Among results for a candidate and an epoch, one is the last. -/
theorem exists_lastWritten? {results : List VotingResult} {result : VotingResult}
    (h : result ∈ results) :
    ∃ last, lastWritten? results result.candidate result.epoch = some last := by
  refine Option.isSome_iff_exists.mp ?_
  rw [lastWritten?, List.getLast?_isSome]
  exact List.ne_nil_of_mem (List.mem_filter.mpr ⟨h, by simp⟩)

/-- Batches are recorded as if they had come as one. -/
theorem written_eq (batches : List (List VotingResult)) :
    written batches = History.empty.recordVotes batches.flatten :=
  List.foldl_flatten.symm

/-- What is recorded for a candidate and an epoch is what was written last. -/
theorem share?_recordVotes_empty (results : List VotingResult) (id : CandidateId)
    (epoch : Epoch) :
    (History.empty.recordVotes results).share? id epoch
      = (lastWritten? results id epoch).map VotingResult.stake := by
  induction results using List.reverseRecOn with
  | nil => rfl
  | append_singleton results result ih =>
      rw [lastWritten?_concat, recordVotes, List.foldl_concat, share?, shares_recordVote]
      by_cases h : result.candidate = id ∧ result.epoch = epoch
      · rw [if_pos h, if_pos (by rw [h.1, h.2])]
        rfl
      · rw [if_neg h, if_neg (by simpa using h)]
        exact ih

/-- The store answers with what was written last. -/
theorem share?_written (batches : List (List VotingResult)) (id : CandidateId) (epoch : Epoch) :
    (written batches).share? id epoch
      = (lastWritten? batches.flatten id epoch).map VotingResult.stake := by
  rw [written_eq]
  exact share?_recordVotes_empty _ _ _

-- ===================================================================== reading

/-- The records met from one key on and before another. -/
def between (history : History) (first last : VoteKey) : List VotingResult :=
  ((history.shares.toList.dropWhile fun (key, _) => key.Before first).takeWhile
      fun (key, _) => key.Before last).map
    fun (key, stake) => ⟨key.epoch, key.candidate, stake⟩

/-- The results of a range lie side by side in the map. -/
theorem votes_eq_between (history : History) (start stop : Epoch) (id : CandidateId) :
    history.votes start stop id = history.between ⟨id, start⟩ ⟨id, stop⟩ := by
  have ordered (bound : VoteKey) : history.shares.toList.Pairwise fun a b =>
      decide (b.1.Before bound) = true → decide (a.1.Before bound) = true := by
    refine history.shares.ordered_keys_toList.imp fun hlt hbefore => ?_
    exact decide_eq_true (VoteKey.Before.trans hlt (of_decide_eq_true hbefore))
  rw [votes, between, dropWhile_eq_filter (ordered _),
    takeWhile_eq_filter ((ordered _).filter _), List.filter_filter]
  congr 2
  funext record
  simp [← VoteKey.between_iff, Bool.and_comm]

/-- A query yields the results of its epochs that were written last. -/
theorem mem_votes_written_iff {batches : List (List VotingResult)} {start stop : Epoch}
    {id : CandidateId} {result : VotingResult} :
    result ∈ (written batches).votes start stop id ↔ start ≤ result.epoch ∧ result.epoch < stop
      ∧ lastWritten? batches.flatten id result.epoch = some result := by
  have recorded := share?_written batches id result.epoch
  rw [share?] at recorded
  rw [mem_votes_iff, recorded, Option.map_eq_some_iff]
  constructor
  · rintro ⟨hid, hstart, hstop, last, hlast, hstake⟩
    obtain ⟨-, hcandidate, hepoch⟩ := of_lastWritten? hlast
    have heq : last = result := by
      obtain ⟨epoch, candidate, stake⟩ := last
      rw [← hcandidate] at hid
      cases hid
      cases hepoch
      cases hstake
      rfl
    exact ⟨hstart, hstop, heq ▸ hlast⟩
  · rintro ⟨hstart, hstop, hlast⟩
    exact ⟨(of_lastWritten? hlast).2.1, hstart, hstop, result, hlast, rfl⟩

/-- A range query answers, in the order of epochs, the last result that was
written for the candidate and each epoch of the range, as far as any was, and
nothing else. It finds them side by side in the map, where those of other
candidates are in front or behind. -/
theorem votes_answer_last_written (batches : List (List VotingResult)) (start stop : Epoch)
    (id : CandidateId) :
    ∃ results, ActivationStore.votes start stop id (written batches)
        = (.ok results, written batches)
      ∧ results.Pairwise (fun result later => result.epoch < later.epoch)
      ∧ (∀ result, result ∈ results ↔ start ≤ result.epoch ∧ result.epoch < stop
          ∧ lastWritten? batches.flatten id result.epoch = some result)
      ∧ (∀ result ∈ results, result.candidate = id)
      ∧ (∀ epoch, start ≤ epoch → epoch < stop →
          (∃ result ∈ batches.flatten, result.candidate = id ∧ result.epoch = epoch) →
            ∃! result, result ∈ results ∧ result.epoch = epoch)
      ∧ results = (written batches).between ⟨id, start⟩ ⟨id, stop⟩ := by
  refine ⟨_, rfl, votes_ascending _ _ _ _, fun result => mem_votes_written_iff,
    fun result hresult => (mem_votes_iff.mp hresult).1, ?_, votes_eq_between _ _ _ _⟩
  rintro _ hstart hstop ⟨result, hresult, rfl, rfl⟩
  obtain ⟨last, hlast⟩ := exists_lastWritten? hresult
  have hepoch := (of_lastWritten? hlast).2.2
  have hmem : last ∈ (written batches).votes start stop result.candidate :=
    mem_votes_written_iff.mpr (hepoch ▸ ⟨hstart, hstop, hlast⟩)
  refine ⟨last, ⟨hmem, hepoch⟩, ?_⟩
  rintro other ⟨hother, hsame⟩
  obtain ⟨-, -, hlast'⟩ := mem_votes_written_iff.mp hother
  rw [hsame, hlast] at hlast'
  exact (Option.some.inj hlast').symm

end History

end LedgerCore
