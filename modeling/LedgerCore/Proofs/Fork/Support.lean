/-
Which epoch the validators' stake enacts the candidate at. The ledger closes
one epoch after the other, each with the tally of its validator set
(`closings`), and `shareAt` is the exact share behind a candidate that the
epochs after those closings stand on.

Beside `Tracks`, each boundary keeps `Polled`: the results that are recorded are
the exact shares, without those below ten percent. Then the candidate is due at
the epochs of its window at which a threshold is backed by shares that are
recorded (`Polled.dueAt_iff`), and it becomes active at the first of them
(`enacted_by_stake`). A threshold that asks for less than ten percent is met
where the candidate gets ten, and not before (`unrecorded_share_enacts_nothing`).
-/
import LedgerCore.Proofs.Fork.Operation
import LedgerCore.Proofs.Fork.Tally

namespace LedgerCore

open VotingResult (leastRecorded power recorded? support tally)

variable {ρ : Type}

-- ================================================================ closed epochs

/-- The boundaries that close epochs one after the other, from a given one on,
each with the tally of its validator set. -/
def closings : Epoch → List (List ValidatorVote) → List EpochBoundary
  | _, [] => []
  | now, validators :: rest => ⟨now, true, tally now validators⟩ :: closings now.next rest

/-- Every boundary of such a run closes an epoch. -/
theorem filter_closings (now : Epoch) (sets : List (List ValidatorVote)) :
    (closings now sets).filter EpochBoundary.closes = closings now sets := by
  induction sets generalizing now with
  | nil => rfl
  | cons validators rest ih => exact congrArg (List.cons _) (ih now.next)

/-- The share behind a candidate that an epoch stands on, when the first epochs
were closed by these validator sets: that of the set that closed the epoch
before. -/
def shareAt (id : CandidateId) (sets : List (List ValidatorVote)) : Nat → Nat
  | 0 => 0
  | epoch + 1 => (sets[epoch]?.map (support id)).getD 0

/-- A share is at most the whole, at any epoch. -/
theorem shareAt_le (id : CandidateId) (sets : List (List ValidatorVote)) (epoch : Nat) :
    shareAt id sets epoch ≤ fullStake := by
  cases epoch with
  | zero => exact Nat.zero_le _
  | succ epoch =>
      rw [shareAt]
      cases sets[epoch]? with
      | none => exact Nat.zero_le _
      | some validators => exact VotingResult.support_le id validators

/-- Epochs behind those that were closed stand on nothing. -/
theorem shareAt_of_lt {id : CandidateId} {sets : List (List ValidatorVote)} {epoch : Nat}
    (h : sets.length < epoch) : shareAt id sets epoch = 0 := by
  obtain ⟨before, rfl⟩ := Nat.exists_eq_add_one_of_ne_zero (Nat.ne_zero_of_lt h)
  rw [shareAt, List.getElem?_eq_none (Nat.le_of_lt_succ h)]
  rfl

/-- One more closed epoch is what the epoch behind it stands on, and changes
nothing for the others. -/
theorem shareAt_concat (id : CandidateId) (sets : List (List ValidatorVote))
    (validators : List ValidatorVote) (epoch : Nat) :
    shareAt id (sets ++ [validators]) epoch
      = if epoch = sets.length + 1 then support id validators else shareAt id sets epoch := by
  cases epoch with
  | zero => rfl
  | succ epoch =>
      rw [shareAt]
      by_cases hlast : epoch = sets.length
      · rw [if_pos (congrArg (· + 1) hlast), hlast, List.getElem?_concat_length]
        rfl
      · rw [if_neg (fun h => hlast (Nat.succ.inj h)), shareAt]
        congr 2
        rcases Nat.lt_or_gt_of_ne hlast with hlt | hgt
        · exact List.getElem?_append_left hlt
        · rw [List.getElem?_eq_none (Nat.le_of_lt hgt), List.getElem?_eq_none]
          rw [List.length_append]
          exact hgt

theorem EpochBoundary.tallied_tally (closing : Epoch) (validators : List ValidatorVote) :
    EpochBoundary.Tallied ⟨closing, true, tally closing validators⟩ :=
  ⟨fun _ h => VotingResult.epoch_of_mem_tally h, VotingResult.nodup_tally closing validators⟩

-- =============================================================== backed epochs

namespace CandidateSchedule

/-- Some threshold is reached by the shares of as many epochs as it asks for,
ending with the given one. None of them may be the first epoch, nor have a
share below the least that counts. -/
def Backed (schedule : CandidateSchedule) (least : Nat) (share : Nat → Nat) (epoch : Nat) : Prop :=
  ∃ threshold ∈ schedule.thresholds, ∀ back < threshold.epochs.toNat,
    back < epoch ∧ least ≤ share (epoch - back)
      ∧ threshold.requiredStake.toNat ≤ share (epoch - back)

/-- The first epoch of the window, up to the last one that was opened, at which
a threshold is backed. -/
structure FirstBacked (schedule : CandidateSchedule) (least : Nat) (share : Nat → Nat)
    (stop : Nat) (epoch : Epoch) : Prop where
  window : schedule.windowContains epoch = true
  reached : epoch.toNat ≤ stop
  backed : schedule.Backed least share epoch.toNat
  first : ∀ e < epoch, schedule.windowContains e = true → ¬ schedule.Backed least share e.toNat

end CandidateSchedule

-- ============================================================== recorded shares

/-- The recorded results are the shares of these validator sets, as far as
shares are recorded. -/
def History.Polled (history : History) (sets : List (List ValidatorVote)) : Prop :=
  ∀ id (e : Epoch), history.share? id e = recorded? (shareAt id sets e.toNat)

namespace History.Polled

variable {history : History} {sets : List (List ValidatorVote)} {candidate : CandidateFork ρ}

theorem empty : History.empty.Polled [] := by
  intro id e
  have hshare : shareAt id [] e.toNat = 0 := by cases e.toNat <;> rfl
  rw [hshare]
  exact Std.ExtTreeMap.getElem?_empty

/-- The tally of one more closed epoch. -/
theorem recordVotes (polled : history.Polled sets) {now : Epoch} (here : now.toNat = sets.length)
    (below : now < .last) {validators : List ValidatorVote}
    (fits : power validators * fullStake < 0x100000000000000000000000000000000) :
    (history.recordVotes (tally now validators)).Polled (sets ++ [validators]) := by
  intro id e
  have tallied := EpochBoundary.tallied_tally now validators
  have hnext : e = now.next ↔ e.toNat = sets.length + 1 := by
    rw [Epoch.ext_iff, Epoch.toNat_next_of_lt below, here]
  rw [History.share?_recordVotes tallied.stamped tallied.distinct,
    VotingResult.find?_tally now fits, polled id e, shareAt_concat]
  by_cases h : e.toNat = sets.length + 1
  · rw [if_pos (hnext.mpr h), if_pos h, shareAt_of_lt (by omega), VotingResult.recorded?_zero,
      Option.or_none]
  · rw [if_neg (mt hnext.mp h), if_neg h]

/-- A threshold is met where the share reaches it and is recorded. -/
theorem met_iff (polled : history.Polled sets) {id : CandidateId} {threshold : Threshold}
    {epoch : Nat} (limit : epoch < 0x10000000000000000) :
    history.Met id threshold epoch ↔
      leastRecorded ≤ shareAt id sets epoch
        ∧ threshold.requiredStake.toNat ≤ shareAt id sets epoch := by
  have hstake : (UInt16.ofNat (shareAt id sets epoch)).toNat = shareAt id sets epoch := by
    refine UInt16.toNat_ofNat_of_lt' (Nat.lt_of_le_of_lt (shareAt_le id sets epoch) ?_)
    decide
  have hshare : ∀ e : Epoch, e.toNat = epoch →
      history.share? id e = recorded? (shareAt id sets epoch) := fun e he => he ▸ polled id e
  have hmet : threshold.isMetBy (UInt16.ofNat (shareAt id sets epoch)) = true ↔
      threshold.requiredStake.toNat ≤ shareAt id sets epoch := by
    rw [Threshold.isMetBy, decide_eq_true_eq, UInt16.le_iff_toNat_le, hstake]
  constructor
  · intro h
    obtain ⟨e, he, stake, hrecorded, hstake⟩ := h
    rw [hshare e he, recorded?] at hrecorded
    split at hrecorded
    · next hleast =>
        cases hrecorded
        exact ⟨hleast, hmet.mp hstake⟩
    · cases hrecorded
  · intro h
    obtain ⟨hleast, hrequired⟩ := h
    refine ⟨⟨epoch, limit⟩, rfl, UInt16.ofNat (shareAt id sets epoch), ?_, hmet.mpr hrequired⟩
    rw [hshare _ rfl, recorded?, if_pos hleast]

/-- The votes are sustained where a threshold is backed by recorded shares. -/
theorem sustained_iff (polled : history.Polled sets) (schedule : CandidateSchedule)
    (id : CandidateId) (epoch : Epoch) :
    schedule.Sustained history id epoch ↔
      schedule.Backed leastRecorded (shareAt id sets) epoch.toNat := by
  refine exists_congr fun threshold => and_congr_right fun _ => ?_
  refine forall_congr' fun back => imp_congr_right fun _ => ?_
  rw [polled.met_iff (Nat.lt_of_le_of_lt (Nat.sub_le ..) epoch.lt_limit)]
  refine and_congr_left fun h => ⟨fun hle => Nat.lt_of_le_of_ne hle fun heq => ?_, Nat.le_of_lt⟩
  -- the first epoch stands on nothing
  have hnothing : shareAt id sets (epoch.toNat - back) = 0 := by
    rw [heq, Nat.sub_self]
    rfl
  rw [hnothing] at h
  exact absurd h.1 (by decide)

/-- The candidate is due at the epochs of its window at which a threshold is
backed by recorded shares. -/
theorem dueAt_iff (polled : history.Polled sets)
    (valid : ∀ threshold ∈ candidate.schedule.thresholds, threshold.isValid = true)
    (epoch : Epoch) :
    candidate.DueAt history epoch ↔ candidate.schedule.windowContains epoch = true
      ∧ candidate.schedule.Backed leastRecorded (shareAt candidate.id sets) epoch.toNat := by
  constructor
  · intro h
    exact ⟨h.window, (polled.sustained_iff ..).mp h.sustained⟩
  · intro h
    obtain ⟨window, backed⟩ := h
    refine ⟨window, ?_, (polled.sustained_iff ..).mpr backed⟩
    -- a threshold asks for an epoch at least, so the last one has a result
    obtain ⟨threshold, hmem, hbacked⟩ := backed
    have hspan := Threshold.epochs_pos (valid threshold hmem)
    have hleast : leastRecorded ≤ shareAt candidate.id sets epoch.toNat := (hbacked 0 hspan).2.1
    refine ⟨UInt16.ofNat (shareAt candidate.id sets epoch.toNat), ?_⟩
    rw [polled, recorded?, if_pos hleast]

end History.Polled

namespace Registry

variable {registry : Registry ρ} {history : History} {sets : List (List ValidatorVote)}
  {candidate : CandidateFork ρ} {now : Epoch} {current : Fork ρ}

-- ==================================================================== operation

/-- Closing one epoch with the tally of its validator set. -/
theorem run_processBoundary_tally (sound : registry.Sound) {validators : List ValidatorVote}
    (fits : power validators * fullStake < 0x100000000000000000000000000000000)
    (here : now.toNat = sets.length) (below : sets.length + 1 < Epoch.last.toNat)
    (tracks : registry.Tracks now current history) (polled : history.Polled sets) :
    ∃ enacted after,
      (registry.processBoundary current.name ⟨now, true, tally now validators⟩).run history
          = (.ok enacted, after)
        ∧ registry.Tracks now.next (enacted.getD current) after
        ∧ after.Polled (sets ++ [validators]) := by
  rw [← here] at below
  have hnow : now < .last := Nat.lt_of_succ_lt below
  have hnext : now.next < .last := by
    rw [Epoch.lt_def, Epoch.toNat_next_of_lt hnow]
    exact below
  have tallied := EpochBoundary.tallied_tally now validators
  obtain ⟨enacted, after, hrun, hshares, tracks'⟩ :=
    run_processBoundary sound rfl tallied hnext tracks
  refine ⟨enacted, after, hrun, tracks', fun id e => ?_⟩
  rw [History.share?, hshares]
  exact polled.recordVotes here hnow fits id e

/-- Closing epochs with tallies keeps a ledger tracked, and its results the
shares of the validators. -/
theorem run_follow_closings (sound : registry.Sound) {boundaries : List EpochBoundary}
    {rest : List (List ValidatorVote)}
    (closed : boundaries.filter EpochBoundary.closes = closings now rest)
    (fits : ∀ validators ∈ rest,
      power validators * fullStake < 0x100000000000000000000000000000000)
    (here : now.toNat = sets.length) (below : (sets ++ rest).length < Epoch.last.toNat)
    (tracks : registry.Tracks now current history) (polled : history.Polled sets) :
    ∃ current' history' stop, (registry.follow current boundaries).run history
        = (.ok current', history') ∧ stop.toNat = (sets ++ rest).length
      ∧ registry.Tracks stop current' history' ∧ history'.Polled (sets ++ rest) := by
  induction boundaries generalizing now current history sets rest with
  | nil =>
      cases rest with
      | nil =>
          rw [List.append_nil]
          exact ⟨current, history, now, rfl, here, tracks, polled⟩
      | cons validators rest => cases closed
  | cons boundary boundaries ih =>
      unfold follow
      cases hcloses : boundary.closes with
      -- a boundary that closes nothing changes nothing
      | false =>
          rw [List.filter_cons_of_neg (by rw [hcloses]; exact Bool.false_ne_true)] at closed
          rw [run_bind_ok (run_processBoundary_of_open (sound.known tracks.current.mem) hcloses)]
          exact ih closed fits here below tracks polled
      -- the next validators are those that close this epoch
      | true =>
          rw [List.filter_cons_of_pos hcloses] at closed
          cases rest with
          | nil => cases closed
          | cons validators rest =>
              obtain ⟨rfl, hclosed⟩ := List.cons.inj closed
              obtain ⟨hfirst, hrest⟩ := List.forall_mem_cons.mp fits
              rw [List.append_cons] at below ⊢
              have hlength : (sets ++ [validators]).length = sets.length + 1 := List.length_append
              have hbelow : sets.length + 1 < Epoch.last.toNat := by
                rw [List.length_append, hlength] at below
                exact Nat.lt_of_le_of_lt (Nat.le_add_right ..) below
              have hnow : now < .last := by
                rw [Epoch.lt_def, here]
                exact Nat.lt_of_succ_lt hbelow
              obtain ⟨enacted, after, hrun, tracks', polled'⟩ :=
                run_processBoundary_tally sound hfirst here hbelow tracks polled
              rw [run_bind_ok hrun]
              refine ih hclosed hrest ?_ below tracks' polled'
              rw [Epoch.toNat_next_of_lt hnow, here, hlength]

/-- In a tracked history with the shares of validators, an enactment is at the
first epoch of the window that recorded shares back. -/
theorem enactment?_iff_firstBacked (sound : registry.Sound)
    (listed : registry.candidate = some candidate) (tracks : registry.Tracks now current history)
    (polled : history.Polled sets) (below : now < .last) (epoch : Epoch) :
    registry.enactment? history = some epoch ↔
      candidate.schedule.FirstBacked leastRecorded (shareAt candidate.id sets) now.toNat epoch := by
  have due_iff := polled.dueAt_iff (sound.candidate candidate listed).valid
  constructor
  · intro h
    have hle := enactment?_le_of_voted tracks.voted below h
    obtain ⟨due, first⟩ := (enactment?_iff_of_voted listed tracks.voted below).mp h
    obtain ⟨window, backed⟩ := (due_iff epoch).mp due
    exact ⟨window, hle, backed, fun e hlt hwindow hbacked =>
      first e hlt ((due_iff e).mpr ⟨hwindow, hbacked⟩)⟩
  · intro h
    refine (enactment?_iff_of_voted listed tracks.voted below).mpr
      ⟨(due_iff epoch).mpr ⟨h.window, h.backed⟩, fun e hlt due => ?_⟩
    obtain ⟨hwindow, hbacked⟩ := (due_iff e).mp due
    exact h.first e hlt hwindow hbacked

/-- A tracked history records the candidate where it is enacted. -/
theorem Tracks.recorded_candidate_iff (tracks : registry.Tracks now current history)
    (sound : registry.Sound) (listed : registry.candidate = some candidate) {epoch : Epoch} :
    history.activations[epoch]? = some candidate.name ↔
      registry.enactment? history = some epoch := by
  rw [tracks.recorded]
  constructor
  · intro h
    rcases h with ⟨fork, hfork, -, -, hname⟩ | ⟨_, -, henacted, -⟩
    · exact absurd hname (sound.fixed_names.2 candidate listed fork hfork)
    · exact henacted
  · intro h
    exact .inr ⟨candidate, listed, h, rfl⟩

/-- The candidate is the current fork of a tracked ledger once it is enacted. -/
theorem Tracks.current_candidate_iff (tracks : registry.Tracks now current history)
    (below : now < .last) (listed : registry.candidate = some candidate) :
    current = .candidate candidate ↔ ∃ epoch, registry.enactment? history = some epoch := by
  cases tracks.current with
  | fixed latest quiet =>
      refine iff_of_false nofun fun h => ?_
      obtain ⟨epoch, hepoch⟩ := h
      exact Nat.not_lt.mpr (enactment?_le_of_voted tracks.voted below hepoch) (quiet epoch hepoch)
  | @candidate other epoch listed' enacted passed =>
      obtain rfl : other = candidate := Option.some.inj (listed'.symm.trans listed)
      exact iff_of_true rfl ⟨epoch, enacted⟩

/-- Reconciling leaves the results as they are. -/
theorem shares_of_reconcile (sound : registry.Sound) {committed : Option Epoch} {after : History}
    (h : (registry.reconcile committed).run history = (.ok (), after)) :
    after.shares = history.shares := by
  obtain ⟨reconciled, hrun, adds⟩ := run_reconcile sound (consistent_of_reconcile h)
  obtain rfl : after = reconciled := congrArg Prod.snd (h.symm.trans hrun)
  exact adds.shares

/-- A ledger that closes its epochs with the tallies of their validator sets
enacts the candidate at the first epoch of the window that is backed by
recorded shares, at no other epoch, and not at all if there is none. -/
theorem enacted_by_stake {forks : List (Fork ρ)} (created : create forks = .ok registry)
    (listed : registry.candidate = some candidate)
    (fits : ∀ validators ∈ sets,
      power validators * fullStake < 0x100000000000000000000000000000000)
    (below : sets.length < Epoch.last.toNat) {boundaries : List EpochBoundary}
    (closed : boundaries.filter EpochBoundary.closes = closings .genesis sets) :
    ∃ current history, (registry.operate boundaries).run History.empty = (.ok current, history)
      ∧ (∀ epoch, history.activations[epoch]? = some candidate.name ↔
          candidate.schedule.FirstBacked leastRecorded (shareAt candidate.id sets)
            sets.length epoch)
      ∧ (current = .candidate candidate ↔ ∃ epoch,
          candidate.schedule.FirstBacked leastRecorded (shareAt candidate.id sets)
            sets.length epoch) := by
  have sound := sound_of_create created
  obtain ⟨start, hstart, tracked⟩ := run_reconcile_empty sound
  have unpolled : start.Polled [] := fun id e => by
    rw [History.share?, shares_of_reconcile sound hstart]
    exact History.Polled.empty id e
  have unclosed : Epoch.genesis.toNat = ([] : List (List ValidatorVote)).length := rfl
  obtain ⟨current, history, stop, hfollow, hstop, tracks, polled⟩ :=
    run_follow_closings sound closed fits unclosed below tracked unpolled
  rw [List.nil_append] at hstop polled
  have hbelow : stop < .last := by rwa [Epoch.lt_def, hstop]
  have enacted_iff := enactment?_iff_firstBacked sound listed tracks polled hbelow
  rw [hstop] at enacted_iff
  refine ⟨current, history, ?_, fun epoch => ?_, ?_⟩
  · unfold operate
    rw [run_bind_ok hstart, hfollow]
  · exact (tracks.recorded_candidate_iff sound listed).trans (enacted_iff epoch)
  · exact (tracks.current_candidate_iff hbelow listed).trans (exists_congr enacted_iff)

/-- The validator sets of two epochs, of which more than half is for
`halfForTwo`. -/
def halfTwice : List (List ValidatorVote) :=
  [[⟨.clamp 60, some halfForTwo.id⟩, ⟨.clamp 40, none⟩],
    [⟨.clamp 30, some halfForTwo.id⟩, ⟨.clamp 45, none⟩, ⟨.clamp 25, some halfForTwo.id⟩]]

/-- More than half of the stake in two epochs in a row passes the threshold of
half for two, and the candidate is enacted. -/
theorem half_twice_enacts :
    ∃ current history, (fixedAndCandidate.operate (closings .genesis halfTwice)).run History.empty
        = (.ok current, history)
      ∧ history.activations[(.clamp 2 : Epoch)]? = some halfForTwo.name
      ∧ current = .candidate halfForTwo := by
  have created : create [.fixed ⟨"first", .genesis, ()⟩, .candidate halfForTwo]
      = .ok fixedAndCandidate := rfl
  have fits : ∀ validators ∈ halfTwice,
      power validators * fullStake < 0x100000000000000000000000000000000 := by decide
  obtain ⟨current, history, hrun, hrecorded, hcurrent⟩ :=
    enacted_by_stake created rfl fits (by decide) (filter_closings .genesis halfTwice)
  have backed : halfForTwo.schedule.FirstBacked leastRecorded
      (shareAt halfForTwo.id halfTwice) halfTwice.length (.clamp 2) := by
    refine ⟨by decide, by decide, ⟨_, List.mem_singleton_self _, by decide +kernel⟩, ?_⟩
    -- the window begins there
    intro e hlt hwindow
    rw [CandidateSchedule.windowContains, Bool.and_eq_true, decide_eq_true_eq] at hwindow
    exact absurd hwindow.1 (Nat.not_le.mpr hlt)
  exact ⟨current, history, hrun, (hrecorded _).mpr backed, hcurrent.mpr ⟨_, backed⟩⟩

/-- A candidate that a twentieth of the stake would enact. -/
def twentieth : CandidateFork Unit :=
  ⟨"second", ⟨.clamp 1, .clamp 5, [⟨500, .clamp 1⟩]⟩, ()⟩

/-- A validator set of which six in a hundred are for `twentieth`. -/
def sixPercent : List ValidatorVote := [⟨.clamp 6, some twentieth.id⟩, ⟨.clamp 94, none⟩]

/-- A share that is enough for a threshold but not recorded enacts nothing. -/
theorem unrecorded_share_enacts_nothing :
    ∃ registry : Registry Unit,
      create [.fixed ⟨"first", .genesis, ()⟩, .candidate twentieth] = .ok registry
        ∧ power sixPercent * fullStake < 0x100000000000000000000000000000000
        ∧ twentieth.schedule.FirstBacked 0 (shareAt twentieth.id [sixPercent]) 1 (.clamp 1)
        ∧ ((registry.operate (closings .genesis [sixPercent])).run
            History.empty).2.activations[(.clamp 1 : Epoch)]? ≠ some twentieth.name := by
  refine ⟨⟨⟨"first", .genesis, ()⟩, [], some twentieth⟩, rfl, by decide, ?_, by decide +kernel⟩
  refine ⟨by decide, by decide, ⟨_, List.mem_singleton_self _, by decide +kernel⟩, ?_⟩
  intro e hlt hwindow
  rw [CandidateSchedule.windowContains, Bool.and_eq_true, decide_eq_true_eq] at hwindow
  exact absurd hwindow.1 (Nat.not_le.mpr hlt)

end Registry

end LedgerCore
