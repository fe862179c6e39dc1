/-
What startup accepts. `run_reconcile` shows that a consistent history is
reconciled; here is the other direction, that no other history is
(`consistent_of_reconcile`). It follows the three phases of `reconcile`
backwards. The first two only add to the history and keep what it has
(`History.Extends`), so whatever the check at the end finds right was right
before, and what they add is there to be found by it.

The second half is about the fork that is active. In a history that has what
should be recorded, and nothing that is not allowed, the last entry up to an
epoch names the fork that the schedule and the votes call for
(`activeAt?_of_current`). The candidate may have more than one entry; all of
them lie behind its enactment.
-/
import LedgerCore.Proofs.Fork.Current
import Mathlib.Data.List.Pairwise

namespace LedgerCore

variable {ρ : Type}

-- ============================================================== more recorded

namespace History

/-- A history that has all that another has, and the same votes. -/
structure Extends (history after : History) : Prop where
  shares : after.shares = history.shares
  kept : ∀ (e : Epoch) name, history.activations[e]? = some name →
    after.activations[e]? = some name

namespace Extends

variable {history middle after : History}

theorem refl (history : History) : history.Extends history := ⟨rfl, fun _ _ => id⟩

theorem trans (h : history.Extends middle) (h' : middle.Extends after) :
    history.Extends after :=
  ⟨h'.shares.trans h.shares, fun e name hname => h'.kept e name (h.kept e name hname)⟩

end Extends

/-- An activation that is recorded was free before, or was recorded already. -/
theorem of_recordActivation {history after : History} {epoch : Epoch} {name : String}
    (h : history.recordActivation epoch name = .ok after) :
    (history.activations[epoch]? = none ∧ after = history.activate epoch name)
      ∨ history.activations[epoch]? = some name ∧ after = history := by
  unfold recordActivation at h
  split at h
  · next existing hexisting =>
      split at h
      · next hsame =>
          cases h
          exact .inr ⟨hsame ▸ hexisting, rfl⟩
      · cases h
  · next hfree =>
      cases h
      exact .inl ⟨hfree, rfl⟩

/-- An activation that is recorded extends the record. -/
theorem extends_of_recordActivation {history after : History} {epoch : Epoch} {name : String}
    (h : history.recordActivation epoch name = .ok after) :
    history.Extends after ∧ after.activations[epoch]? = some name := by
  rcases of_recordActivation h with ⟨hfree, rfl⟩ | ⟨hthere, rfl⟩
  · refine ⟨⟨rfl, fun e other hother => ?_⟩, ?_⟩
    · rw [activations_activate, if_neg]
      · exact hother
      · rintro rfl
        rw [hfree] at hother
        cases hother
    · rw [activations_activate, if_pos rfl]
  · exact ⟨.refl _, hthere⟩

end History

namespace Registry

variable {registry : Registry ρ} {history after : History} {now : Epoch}

-- ================================================================= the phases

/-- A store operation that succeeds has recorded the activation. -/
theorem recordActivation_of_run {epoch : Epoch} {name : String}
    (h : (onStore (ActivationStore.recordActivation epoch name)).run history = (.ok (), after)) :
    history.recordActivation epoch name = .ok after := by
  cases records_of_run h with
  | recorded hrecord => exact hrecord

/-- Recording the fixed forks that were missed keeps what is there. -/
theorem extends_of_recordMissedFixed {recorded : Activations} {forks : List (FixedFork ρ)}
    (h : (recordMissedFixed recorded now forks).run history = (.ok (), after)) :
    history.Extends after := by
  induction forks generalizing history with
  | nil =>
      cases h
      exact .refl _
  | cons fork rest ih =>
      unfold recordMissedFixed at h
      split at h
      · obtain ⟨⟨⟩, middle, hfirst, hrest⟩ := exists_of_run_bind_ok h
        have hrecord := recordActivation_of_run hfirst
        exact (History.extends_of_recordActivation hrecord).1.trans (ih hrest)
      · exact ih h

/-- The second phase keeps what is there. It accepts a candidate that is
recorded only where the votes enact it, and one that is not it records there. -/
theorem of_recordMissedCandidate {recorded : Activations}
    (h : (registry.recordMissedCandidate recorded).run history = (.ok (), after)) :
    history.Extends after ∧ ∀ candidate, registry.candidate = some candidate →
      (∀ epoch, recordedAt? recorded candidate.name = some epoch →
          registry.enactment? history = some epoch)
        ∧ (∀ epoch, recordedAt? recorded candidate.name = none →
            registry.enactment? history = some epoch →
              after.activations[epoch]? = some candidate.name) := by
  cases recordsCandidate_of_run h with
  | absent unlisted =>
      rw [unlisted]
      exact ⟨.refl _, nofun⟩
  | waiting listed unstored unenacted =>
      rw [listed, unenacted]
      refine ⟨.refl _, fun other hother => ?_⟩
      cases hother
      exact ⟨by simp [unstored], nofun⟩
  | confirmed listed stored enacted =>
      rw [listed, enacted]
      refine ⟨.refl _, fun other hother => ?_⟩
      cases hother
      rw [stored]
      exact ⟨fun _ => id, nofun⟩
  | missed listed unstored enacted records =>
      cases records with
      | recorded hrecord =>
          obtain ⟨hextends, hthere⟩ := History.extends_of_recordActivation hrecord
          rw [listed, enacted]
          refine ⟨hextends, fun other hother => ?_⟩
          cases hother
          refine ⟨by simp [unstored], fun epoch _ hepoch => ?_⟩
          cases hepoch
          exact hthere

/-- A history that passes the check has entries only that are past and
allowed. -/
theorem of_checkHistory {activations : Activations}
    (h : registry.checkHistory activations now = .ok ()) {e : Epoch} {name : String}
    (hname : activations[e]? = some name) : e ≤ now ∧ registry.allows e name = true := by
  unfold checkHistory at h
  cases hfixed : checkFixed activations now registry.fixed with
  | error cause =>
      rw [hfixed] at h
      cases h
  | ok _ =>
      rw [hfixed] at h
      exact checkEntries_eq_ok_iff.mp h (e, name)
        (Std.ExtTreeMap.mem_toList_iff_getElem?_eq_some.mpr hname)

-- ============================================================== what is accepted

/-- Only consistent histories are reconciled. -/
theorem consistent_of_reconcile {committed : Option Epoch}
    (h : (registry.reconcile committed).run history = (.ok (), after)) :
    registry.Consistent history (committed.getD .genesis) := by
  unfold reconcile at h
  rw [run_bind_ok (run_activations history)] at h
  obtain ⟨⟨⟩, middle, hfixed, hrest⟩ := exists_of_run_bind_ok h
  obtain ⟨⟨⟩, filled, hcandidate, hcheck⟩ := exists_of_run_bind_ok hrest
  rw [run_bind_ok (run_activations filled)] at hcheck
  have extendsMiddle := extends_of_recordMissedFixed hfixed
  obtain ⟨extendsFilled, hcandidate⟩ := of_recordMissedCandidate hcandidate
  have checked : registry.checkHistory filled.activations (committed.getD .genesis) = .ok () := by
    split at hcheck
    · next hok => exact hok
    · cases hcheck
  have kept := (extendsMiddle.trans extendsFilled).kept
  rw [enactment?_congr registry extendsMiddle.shares] at hcandidate
  refine ⟨fun e name hname => (of_checkHistory checked (kept e name hname)).1,
    fun e name hname => (of_checkHistory checked (kept e name hname)).2,
    fun candidate epoch hlisted hstored => (hcandidate candidate hlisted).1 epoch hstored,
    fun candidate epoch hlisted hunstored henacted => ?_⟩
  have hthere := (hcandidate candidate hlisted).2 epoch hunstored henacted
  exact (of_checkHistory checked hthere).1

-- ============================================================ what was recorded when

/-- The earliest epoch a history records a fork at. -/
def FirstRecorded (activations : Activations) (name : String) (epoch : Epoch) : Prop :=
  activations[epoch]? = some name ∧ ∀ e : Epoch, activations[e]? = some name → epoch ≤ e

/-- There is one first epoch. -/
theorem FirstRecorded.unique {activations : Activations} {name : String} {epoch other : Epoch}
    (h : FirstRecorded activations name epoch) (h' : FirstRecorded activations name other) :
    epoch = other :=
  Epoch.ext (Nat.le_antisymm (h.2 other h'.1) (h'.2 epoch h.1))

/-- What is found by its name is found at the first epoch that has it. -/
theorem firstRecorded_of_recordedAt? {activations : Activations} {name : String} {epoch : Epoch}
    (h : recordedAt? activations name = some epoch) : FirstRecorded activations name epoch := by
  refine ⟨getElem?_of_recordedAt? h, fun e he => ?_⟩
  obtain ⟨entry, hfind, rfl⟩ := Option.map_eq_some_iff.mp h
  obtain ⟨-, before, behind, hsplit, hbefore⟩ := List.find?_eq_some_iff_append.mp hfind
  have ordered := activations.ordered_keys_toList
  have hmem := Std.ExtTreeMap.mem_toList_iff_getElem?_eq_some.mpr he
  rw [hsplit] at ordered hmem
  rcases List.mem_append.mp hmem with hearlier | hlater
  · have hother := hbefore (e, name) hearlier
    simp at hother
  · rcases List.mem_cons.mp hlater with rfl | hlater
    · exact Nat.le_refl _
    · have hlt := List.rel_of_pairwise_cons (List.pairwise_append.mp ordered).2.1 hlater
      exact Nat.le_of_lt (Nat.compare_eq_lt.mp hlt)

/-- A name is not found if no epoch has it. -/
theorem recordedAt?_eq_none_iff {activations : Activations} {name : String} :
    recordedAt? activations name = none ↔ ∀ e : Epoch, activations[e]? ≠ some name := by
  rw [recordedAt?, Option.map_eq_none_iff, List.find?_eq_none]
  constructor
  · intro hnone e he
    have hother := hnone (e, name) (Std.ExtTreeMap.mem_toList_iff_getElem?_eq_some.mpr he)
    simp at hother
  · intro hnever entry hentry hname
    rw [beq_iff_eq] at hname
    subst hname
    exact hnever entry.1 (Std.ExtTreeMap.mem_toList_iff_getElem?_eq_some.mp hentry)

-- ================================================================ the active fork

/-- If all entries from one on name the same fork, it is the active one. -/
theorem activeAt?_of_named {activations : Activations} {epoch : Epoch} {name : String}
    (h : activations[epoch]? = some name) (passed : epoch ≤ now)
    (named : ∀ (e : Epoch) other, activations[e]? = some other → epoch ≤ e → e ≤ now →
      other = name) :
    registry.activeAt? now activations = registry.byName? name := by
  have hmem : (epoch, name) ∈ activations.toList.filter fun entry => entry.1 ≤ now :=
    List.mem_filter.mpr ⟨Std.ExtTreeMap.mem_toList_iff_getElem?_eq_some.mpr h,
      decide_eq_true passed⟩
  have ordered := (activations.ordered_keys_toList).filter fun entry => decide (entry.1 ≤ now)
  rw [activeAt?]
  cases hlast : (activations.toList.filter fun entry => entry.1 ≤ now).getLast? with
  | none =>
      rw [List.getLast?_eq_none_iff.mp hlast] at hmem
      cases hmem
  | some entry =>
      obtain ⟨hlisted, hpassed⟩ := List.mem_filter.mp (List.mem_of_getLast? hlast)
      obtain ⟨before, hsplit⟩ := List.getLast?_eq_some_iff.mp hlast
      -- entries are listed by epoch, so the last of them is no earlier than the named one
      have hle : epoch ≤ entry.1 := by
        rw [hsplit] at hmem ordered
        rcases List.mem_append.mp hmem with hbefore | hsame
        · exact Nat.le_of_lt (Nat.compare_eq_lt.mp
            ((List.pairwise_append.mp ordered).2.2 _ hbefore entry (List.mem_singleton_self _)))
        · rw [← List.mem_singleton.mp hsame]
          exact Nat.le_refl _
      have hname := named entry.1 entry.2
        (Std.ExtTreeMap.mem_toList_iff_getElem?_eq_some.mp hlisted) hle (of_decide_eq_true hpassed)
      rw [Option.bind_some, hname]

/-- At every epoch some fixed fork is the last one that was passed. -/
theorem exists_latest (sound : registry.Sound) (now : Epoch) :
    ∃ fork, registry.Latest now fork := by
  have hgenesis : registry.genesis ∈ registry.fixed.filter fun fork => fork.epoch ≤ now := by
    refine List.mem_filter.mpr ⟨List.mem_cons_self, decide_eq_true ?_⟩
    rw [sound.starts]
    exact Nat.zero_le _
  have ordered := sound.ascending.filter fun fork => decide (fork.epoch ≤ now)
  have hne := List.ne_nil_of_mem hgenesis
  obtain ⟨hlisted, hpassed⟩ := List.mem_filter.mp (List.getLast_mem hne)
  refine ⟨_, hlisted, of_decide_eq_true hpassed, fun other hother hle => ?_⟩
  have hmem : other ∈ registry.fixed.filter fun fork => fork.epoch ≤ now :=
    List.mem_filter.mpr ⟨hother, decide_eq_true hle⟩
  rw [← List.dropLast_append_getLast hne] at hmem
  rcases List.mem_append.mp hmem with hbefore | hlast
  · exact Nat.le_of_lt (ordered.rel_dropLast_getLast hbefore)
  · rw [List.mem_singleton.mp hlast]
    exact Nat.le_refl _

/-- A history that has what should be recorded, and otherwise only what is
allowed and no candidate ahead of its enactment, has the current fork as the
active one. -/
theorem activeAt?_of_current (sound : registry.Sound) {fork : Fork ρ}
    (hcurrent : registry.Current history now fork)
    (complete : ∀ e name, registry.Scheduled history now e name →
      after.activations[e]? = some name)
    (allowed : registry.Allowed after)
    (behind : ∀ candidate (e : Epoch), registry.candidate = some candidate →
      after.activations[e]? = some candidate.name →
        ∃ epoch ≤ e, registry.enactment? history = some epoch) :
    registry.activeAt? now after.activations = some fork := by
  rw [← sound.byName?_of_mem hcurrent.mem]
  cases hcurrent with
  | @fixed fork latest quiet =>
      refine activeAt?_of_named (complete fork.epoch fork.name ?_) latest.passed
        fun e other hother hle hnow => ?_
      · exact .inl ⟨fork, latest.mem, latest.passed, rfl, rfl⟩
      · rcases allows_iff.mp (allowed e other hother) with
          ⟨later, hlater, rfl, rfl⟩ | ⟨candidate, hcandidate, -, rfl⟩
        · have hsame := Epoch.ext (Nat.le_antisymm (latest.last later hlater hnow) hle)
          rw [sound.eq_of_epoch_eq hlater latest.mem hsame]
          rfl
        -- a candidate ahead of its enactment is ruled out
        · obtain ⟨epoch, hepoch, henacted⟩ := behind candidate e hcandidate hother
          exact absurd (Nat.lt_of_lt_of_le (quiet epoch henacted) hepoch) (Nat.not_lt.mpr hnow)
  | @candidate candidate epoch listed enacted passed =>
      refine activeAt?_of_named (complete epoch candidate.name ?_) passed
        fun e other hother hle hnow => ?_
      · exact .inr ⟨candidate, listed, enacted, rfl⟩
      · rcases allows_iff.mp (allowed e other hother) with
          ⟨fixed, hfixed, rfl, rfl⟩ | ⟨same, hsame, -, rfl⟩
        · exact absurd (sound.lt_enactment enacted hfixed) (Nat.not_lt.mpr hle)
        · rw [Option.some.inj (hsame.symm.trans listed)]
          rfl

theorem Scheduled.mono {e : Epoch} {name : String} {now later : Epoch}
    (h : registry.Scheduled history now e name) (hle : now ≤ later) :
    registry.Scheduled history later e name := by
  rcases h with ⟨fork, hfork, hpassed, he, hname⟩ | henacted
  · exact .inl ⟨fork, hfork, Nat.le_trans hpassed hle, he, hname⟩
  · exact .inr henacted

/-- Up to the epoch it is reconciled for, a history that was consistent has the
current fork of each epoch as the active one. -/
theorem Consistent.activeAt? (consistent : registry.Consistent history now)
    (sound : registry.Sound) (h : history.Adds after (registry.Scheduled history now))
    {e : Epoch} (passed : e ≤ now) {fork : Fork ρ} (hcurrent : registry.Current history e fork) :
    registry.activeAt? e after.activations = some fork := by
  refine activeAt?_of_current sound hcurrent
    (fun e' name hscheduled => (h.recorded e' name).mpr (.inr (hscheduled.mono passed)))
    (consistent.allowed.adds h fun _ _ => allows_of_scheduled)
    fun candidate e' hcandidate hname => ?_
  rcases (h.recorded e' candidate.name).mp hname with hold | hnew
  · cases hstored : recordedAt? history.activations candidate.name with
    | none => exact absurd hold (recordedAt?_eq_none_iff.mp hstored e')
    | some epoch =>
        exact ⟨epoch, (firstRecorded_of_recordedAt? hstored).2 e' hold,
          consistent.stored candidate epoch hcandidate hstored⟩
  · rcases hnew with ⟨fork, hfork, -, -, hname⟩ | ⟨_, -, henacted, -⟩
    · exact absurd hname (sound.fixed_names.2 candidate hcandidate fork hfork)
    · exact ⟨e', Nat.le_refl _, henacted⟩

-- ==================================================================== startup

/-- Consistency, said of the entries of a history. -/
theorem consistent_iff :
    registry.Consistent history now ↔
      (∀ (e : Epoch) name, history.activations[e]? = some name → e ≤ now
          ∧ ((∃ fork ∈ registry.fixed, fork.epoch = e ∧ fork.name = name)
            ∨ ∃ candidate, registry.candidate = some candidate
                ∧ candidate.schedule.windowContains e = true ∧ candidate.name = name))
        ∧ ∀ candidate, registry.candidate = some candidate →
            ((∃ e : Epoch, history.activations[e]? = some candidate.name) →
              ∃ epoch, registry.enactment? history = some epoch
                ∧ FirstRecorded history.activations candidate.name epoch)
            ∧ ((∀ e : Epoch, history.activations[e]? ≠ some candidate.name) →
              ∀ epoch, registry.enactment? history = some epoch → epoch ≤ now) := by
  constructor
  · intro consistent
    refine ⟨fun e name hname => ⟨consistent.past e name hname,
      allows_iff.mp (consistent.allowed e name hname)⟩, fun candidate hcandidate => ⟨?_, ?_⟩⟩
    · rintro ⟨e, he⟩
      cases hstored : recordedAt? history.activations candidate.name with
      | none => exact absurd he (recordedAt?_eq_none_iff.mp hstored e)
      | some epoch =>
          exact ⟨epoch, consistent.stored candidate epoch hcandidate hstored,
            firstRecorded_of_recordedAt? hstored⟩
    · intro hnever epoch henacted
      exact consistent.missed candidate epoch hcandidate
        (recordedAt?_eq_none_iff.mpr hnever) henacted
  · rintro ⟨hentries, hcandidates⟩
    refine ⟨fun e name hname => (hentries e name hname).1,
      fun e name hname => allows_iff.mpr (hentries e name hname).2,
      fun candidate epoch hcandidate hstored => ?_,
      fun candidate epoch hcandidate hunstored henacted =>
        (hcandidates candidate hcandidate).2 (recordedAt?_eq_none_iff.mp hunstored) epoch henacted⟩
    obtain ⟨enactment, henacted, hfirst⟩ := (hcandidates candidate hcandidate).1
      ⟨epoch, getElem?_of_recordedAt? hstored⟩
    rw [henacted, hfirst.unique (firstRecorded_of_recordedAt? hstored)]

/-- Startup accepts a history exactly if all of its entries are past and
scheduled, and it records the candidate first where the votes enact it; a
candidate that is not recorded may be enacted in the past only. What it then
leaves is the history with every fixed fork that was passed and the candidate
at its enactment, and the active fork of each epoch follows from that. -/
theorem reconcile_ok_iff {forks : List (Fork ρ)} (created : create forks = .ok registry)
    (history : History) (committed : Option Epoch) :
    ∃ enactment answer after, registry.findEnactment.run history = (.ok enactment, history)
      ∧ (registry.reconcile committed).run history = (answer, after)
      ∧ (answer = .ok () ↔
          (∀ (e : Epoch) name, history.activations[e]? = some name → e ≤ committed.getD .genesis
              ∧ ((∃ fork ∈ registry.fixed, fork.epoch = e ∧ fork.name = name)
                ∨ ∃ candidate, registry.candidate = some candidate
                    ∧ candidate.schedule.windowContains e = true ∧ candidate.name = name))
            ∧ ∀ candidate, registry.candidate = some candidate →
                ((∃ e : Epoch, history.activations[e]? = some candidate.name) →
                  ∃ epoch, enactment = some epoch
                    ∧ FirstRecorded history.activations candidate.name epoch)
                ∧ ((∀ e : Epoch, history.activations[e]? ≠ some candidate.name) →
                  ∀ epoch, enactment = some epoch → epoch ≤ committed.getD .genesis))
      ∧ (answer = .ok () →
          after.shares = history.shares
            ∧ (∀ (e : Epoch) name, after.activations[e]? = some name ↔
                history.activations[e]? = some name
                  ∨ (∃ fork ∈ registry.fixed, fork.epoch ≤ committed.getD .genesis
                      ∧ fork.epoch = e ∧ fork.name = name)
                  ∨ ∃ candidate, registry.candidate = some candidate
                      ∧ enactment = some e ∧ candidate.name = name)
            ∧ ∀ e ≤ committed.getD .genesis,
                (∀ candidate epoch, registry.candidate = some candidate →
                  enactment = some epoch → epoch ≤ e →
                    registry.activeAt? e after.activations = some (.candidate candidate))
                ∧ ((∀ epoch, enactment = some epoch → e < epoch) →
                    ∃ fork, registry.Latest e fork
                      ∧ registry.activeAt? e after.activations = some (.fixed fork))) := by
  have sound := sound_of_create created
  rcases hrun : (registry.reconcile committed).run history with ⟨answer, after⟩
  refine ⟨registry.enactment? history, answer, after, registry.run_findEnactment history, rfl,
    ?_, ?_⟩
  · -- what reconciliation checks is that the history is consistent
    rw [← consistent_iff]
    constructor
    · rintro rfl
      exact consistent_of_reconcile hrun
    · intro consistent
      obtain ⟨_, hok, -⟩ := run_reconcile sound consistent
      rw [hok] at hrun
      cases hrun
      rfl
  · rintro rfl
    -- run a second time from consistency, to see what it adds
    have consistent := consistent_of_reconcile hrun
    obtain ⟨_, hok, adds⟩ := run_reconcile sound consistent
    rw [hok] at hrun
    cases hrun
    refine ⟨adds.shares, adds.recorded, fun e passed => ⟨?_, ?_⟩⟩
    · intro candidate epoch hcandidate henacted hle
      exact consistent.activeAt? sound adds passed (.candidate hcandidate henacted hle)
    · intro quiet
      obtain ⟨fork, latest⟩ := exists_latest sound e
      exact ⟨fork, latest, consistent.activeAt? sound adds passed (.fixed latest quiet)⟩

/-- A history with the votes for an enactment at its second epoch is accepted,
and the candidate is active from there on. -/
theorem missed_enactment_accepted :
    ∃ after, (fixedAndCandidate.reconcile (some (.clamp 3))).run twoResults = (.ok (), after)
      ∧ after.activations[(.clamp 2 : Epoch)]? = some "second"
      ∧ fixedAndCandidate.activeAt? (.clamp 3) after.activations
          = some (.candidate halfForTwo) := by
  have created : create [.fixed ⟨"first", .genesis, ()⟩, .candidate halfForTwo]
      = .ok fixedAndCandidate := rfl
  have computed : (fixedAndCandidate.findEnactment.run twoResults).1.toOption
      = some (some (.clamp 2)) := by decide +kernel
  -- no activation is on record yet
  have bare : ∀ (e : Epoch) name, twoResults.activations[e]? ≠ some name := by
    intro e name h
    rw [twoResults, History.activations_recordVotes, History.empty,
      Std.ExtTreeMap.getElem?_empty] at h
    cases h
  obtain ⟨enactment, answer, after, hfind, hrun, hok, hafter⟩ :=
    reconcile_ok_iff created twoResults (some (.clamp 3))
  rw [hfind] at computed
  obtain rfl : enactment = some (.clamp 2) := Option.some.inj computed
  obtain rfl : answer = .ok () := by
    refine hok.mpr ⟨fun e name h => absurd h (bare e name), fun candidate _ => ⟨?_, ?_⟩⟩
    · rintro ⟨e, he⟩
      exact absurd he (bare e _)
    · rintro _ epoch h
      cases h
      decide
  obtain ⟨-, hrecorded, hactive⟩ := hafter rfl
  exact ⟨after, hrun, (hrecorded _ _).mpr (.inr (.inr ⟨halfForTwo, rfl, rfl, rfl⟩)),
    (hactive (.clamp 3) (Nat.le_refl _)).1 halfForTwo (.clamp 2) rfl rfl (by decide)⟩

end Registry

end LedgerCore
