/-
Consuming by a scan is consuming one at a time. The machine consumes what a
procedure pulled from its scan in one go, once the procedure has returned,
and from a list that was drawn up when the scan was opened. It comes to the
same as an instruction of its own for each: every reference still finds its
substate when its turn comes, the overlay is the same in the end, and so are
the records, positions aside.

# The argument

Over a store whose cursor yields each id once, no two offers have the same
source (`Overlay.scanSources_nodup`), and consuming a source changes nothing
that is found by another (`Overlay.look_consume`). So the references may be
taken in turn (`takeAll_of_live`), and any walk that does nothing but
consume them has done just that (`takeAll_of_steps`).

What the next scan offers is said on the offers together with their sources
(`Overlay.sourcedScan`): consuming a source strikes it off that list and
changes nothing else (`sourcedScan_consume`). An offer that cannot be
decoded is never consumed and stays.
-/
import LedgerCore.Proofs.Machine.Heard
import LedgerCore.Proofs.Machine.Offers

namespace LedgerCore

variable {P R : Type}

-- ================================================================= references

/-- The reference by which an instruction of its own consumes what a scan
offers. -/
inductive ScanSource.ReferredBy : ScanSource → SubstateRef → Prop
  | created (index : UInt32) : ReferredBy (.created index.toNat) (.created index)
  | committed (id : SubstateId) : ReferredBy (.committed id) (.committed id)

/-- A reference to a source takes that source from the ledger. -/
theorem ScanSource.ReferredBy.source_eq {source : ScanSource} {target : SubstateRef}
    (refers : source.ReferredBy target) : target.source = source := by
  cases refers with
  | created index => rfl
  | committed id => rfl

/-- As long as boot-up numbers fit into a reference, every source has one. -/
theorem Overlay.Known.exists_referredBy {overlay : Overlay P} {source : ScanSource}
    (known : overlay.Known source) (fit : overlay.slots.length ≤ UInt32.size) :
    ∃ target, source.ReferredBy target := by
  cases source with
  | committed id => exact ⟨_, .committed id⟩
  | created number =>
      have small : number < UInt32.size := Nat.lt_of_lt_of_le known fit
      have refers := ScanSource.ReferredBy.created (UInt32.ofNat number)
      rw [UInt32.toNat_ofNat_of_lt' small] at refers
      exact ⟨_, refers⟩

/-- One reference for each of some scanned substates, in order. -/
def ScanEntry.Refer (entries : List (ScanEntry P)) (targets : List SubstateRef) : Prop :=
  List.Forall₂ (fun entry target => entry.source.ReferredBy target) entries targets

/-- Whatever a scan offers can be referred to, one by one, as long as
boot-up numbers do not wrap. -/
theorem ScanEntry.exists_refer {overlay : Overlay P} {entries : List (ScanEntry P)}
    (known : ∀ entry ∈ entries, overlay.Known entry.source)
    (fit : overlay.slots.length ≤ UInt32.size) : ∃ targets, Refer entries targets := by
  induction entries with
  | nil => exact ⟨[], .nil⟩
  | cons entry rest ih =>
      obtain ⟨target, refers⟩ := (known entry List.mem_cons_self).exists_referredBy fit
      obtain ⟨targets, refer⟩ := ih fun later h => known later (List.mem_cons_of_mem _ h)
      exact ⟨target :: targets, .cons refers refer⟩

/-- What a reference to an offered substate finds. -/
def ScanEntry.found (entry : ScanEntry P) : Found P := ⟨entry.id, entry.object, some entry.encoding⟩

namespace Overlay

variable [StateObject P] {ledger : Ledger P}

/-- Consumes substates one at a time, up to the first that is not there. -/
def takeAll (ledger : Ledger P) :
    Overlay P → List SubstateRef → Except ExecutionError (List (Found P) × Overlay P)
  | overlay, [] => .ok ([], overlay)
  | overlay, target :: rest => do
      let (found, next) ← overlay.take ledger target
      let (founds, last) ← takeAll ledger next rest
      return (found :: founds, last)

/-- To take several is to take the first and then the others. -/
theorem takeAll_cons {overlay last : Overlay P} {target : SubstateRef} {found : Found P}
    {rest : List SubstateRef} {founds : List (Found P)}
    (look : overlay.look ledger target = .ok found)
    (taken : (overlay.without target).takeAll ledger rest = .ok (founds, last)) :
    overlay.takeAll ledger (target :: rest) = .ok (found :: founds, last) := by
  rw [takeAll, take, look]
  change ((overlay.without target).takeAll ledger rest >>= _) = _
  rw [taken]
  rfl

/-- Consuming a source changes nothing for a reference to another. -/
theorem look_consume {overlay : Overlay P} {source other : ScanSource} {target : SubstateRef}
    (refers : source.ReferredBy target) (differs : source ≠ other) :
    (overlay.consume other).look ledger target = overlay.look ledger target := by
  cases refers with
  | created index =>
      cases other with
      | committed id => rfl
      | created number =>
          have apart : number ≠ index.toNat := fun same => differs (congrArg _ same.symm)
          rw [look, look, lookCreated, lookCreated, consume, created?_dropCreated, if_neg apart]
  | committed id =>
      cases other with
      | created number => rfl
      | committed other =>
          have apart : id ≠ other := fun same => differs (congrArg _ same)
          simp only [look, lookCommitted, consume, mem_consumed_markConsumed, apart, false_or]

/-- What a scan offers is what a reference to it finds, over a store whose
cursor and look-ups agree. -/
theorem look_of_offered {overlay : Overlay P} {index : SubstateIndex} {entry : ScanEntry P}
    {target : SubstateRef}
    (agrees : ∀ raw ∈ ledger.store.scan index, ledger.store.substate? raw.id = some raw.encoding)
    (offered : .ok entry ∈ overlay.scan ledger index) (refers : entry.source.ReferredBy target) :
    overlay.look ledger target = .ok entry.found := by
  rcases ok_mem_scan_iff.mp offered with created | ⟨raw, hraw, live, decoded, hentry⟩
  · obtain ⟨number, substate, live, -, rfl⟩ := mem_createdEntries_iff.mp created
    cases refers with
    | created index =>
        rw [look, lookCreated, live]
        rfl
  · rw [hentry] at refers
    cases refers with
    | committed id =>
        rw [look, lookCommitted, if_neg live, agrees raw hraw]
        dsimp only
        rw [decoded, hentry]
        rfl

/-- Substates that are there, none twice, may be consumed one at a time. -/
theorem takeAll_of_live {entries : List (ScanEntry P)} {targets : List SubstateRef}
    (refer : ScanEntry.Refer entries targets) : ∀ {overlay : Overlay P},
      (∀ entry ∈ entries, ∀ target, entry.source.ReferredBy target →
        overlay.look ledger target = .ok entry.found) →
      (entries.map ScanEntry.source).Nodup →
      overlay.takeAll ledger targets
        = .ok (entries.map ScanEntry.found, overlay.consumeAll entries) := by
  induction refer with
  | nil =>
      intro overlay live once
      rfl
  | @cons entry target entries targets refers refer ih =>
      intro overlay live once
      obtain ⟨fresh, once⟩ := List.nodup_cons.mp once
      refine takeAll_cons (live entry List.mem_cons_self target refers) ?_
      rw [without_eq_consume, refers.source_eq]
      refine ih (fun later hlater target refers' => ?_) once
      -- what was consumed now is not what comes up later
      have apart : later.source ≠ entry.source := by
        intro same
        exact fresh (same ▸ List.mem_map_of_mem hlater)
      rw [look_consume refers' apart]
      exact live later (List.mem_cons_of_mem _ hlater) target refers'

end Overlay

-- ============================================================ the next scan

/-- Of a keyed list without repetitions, striking off the keys of what is
taken among the first leaves the others of these and all that follow. -/
private theorem filter_struck_off {κ ε : Type} [DecidableEq κ] {l : List (κ × ε)}
    (once : (l.map Prod.fst).Nodup) (taken : ε → Bool) {first rest : List (κ × ε)}
    (split : l = first ++ rest) :
    l.filter (·.1 ∉ (first.filter (taken ·.2)).map Prod.fst)
      = first.filter (!taken ·.2) ++ rest := by
  subst split
  have unique : ∀ a ∈ first ++ rest, ∀ b ∈ first ++ rest, a.1 = b.1 → a = b :=
    List.inj_on_of_nodup_map once
  -- keys occur once, so a key is struck off with its own entry only
  have struck : ∀ a ∈ first ++ rest,
      a.1 ∈ (first.filter (taken ·.2)).map Prod.fst ↔ a ∈ first ∧ taken a.2 = true := by
    intro a ha
    constructor
    · intro hkey
      obtain ⟨b, hb, same⟩ := List.mem_map.mp hkey
      obtain ⟨hb, htaken⟩ := List.mem_filter.mp hb
      obtain rfl := unique b (List.mem_append_left _ hb) a ha same
      exact ⟨hb, htaken⟩
    · intro h
      exact List.mem_map_of_mem (List.mem_filter.mpr h)
  rw [List.map_append, List.nodup_append] at once
  obtain ⟨-, -, disjoint⟩ := once
  rw [List.filter_append]
  refine congrArg₂ (· ++ ·) (List.filter_congr fun a ha => ?_) (List.filter_eq_self.mpr ?_)
  · simp [struck a (List.mem_append_left _ ha), ha]
  · intro a ha
    have elsewhere : a ∉ first := fun hfirst =>
      disjoint _ (List.mem_map_of_mem hfirst) _ (List.mem_map_of_mem ha) rfl
    simp [struck a (List.mem_append_right _ ha), elsewhere]

/-- The sources of what was pulled are those of the decodable offers. -/
private theorem sources_of_decodable {l : List (ScanSource × Except ExecutionError (ScanEntry P))}
    (sourced : ∀ source entry, (source, .ok entry) ∈ l → entry.source = source) :
    ((l.map Prod.snd).filterMap Except.toOption).map ScanEntry.source
      = (l.filter (·.2.isOk)).map Prod.fst := by
  induction l with
  | nil => rfl
  | cons offer rest ih =>
      have rest' := ih fun source entry h => sourced source entry (List.mem_cons_of_mem _ h)
      obtain ⟨source, offer⟩ := offer
      cases offer with
      | error cause => exact rest'
      | ok entry =>
          have here := sourced source entry List.mem_cons_self
          exact congrArg₂ List.cons here rest'

namespace Overlay

variable {ledger : Ledger P}

/-- Once the decodable ones among the first offers are consumed, a scan
offers the others of these and all that follow. -/
theorem scan_consumeAll {overlay : Overlay P} {index : SubstateIndex}
    {first rest : List (Except ExecutionError (ScanEntry P))}
    (once : ((ledger.store.scan index).map RawSubstate.id).Nodup)
    (split : overlay.scan ledger index = first ++ rest) :
    (overlay.consumeAll (first.filterMap Except.toOption)).scan ledger index
      = first.filter (!·.isOk) ++ rest := by
  have unique := scanSources_nodup once overlay
  rw [← map_fst_sourcedScan] at unique
  rw [← map_snd_sourcedScan] at split
  obtain ⟨first', rest', split', rfl, rfl⟩ := List.map_eq_append_iff.mp split
  have sources : ((first'.map Prod.snd).filterMap Except.toOption).map ScanEntry.source
      = (first'.filter (·.2.isOk)).map Prod.fst := by
    refine sources_of_decodable fun source entry h => ?_
    exact source_of_mem_sourcedScan (split' ▸ List.mem_append_left rest' h)
  rw [consumeAll_eq_foldl, sources, ← map_snd_sourcedScan, sourcedScan_foldl,
    filter_struck_off unique Except.isOk split', List.map_append, List.filter_map]
  rfl

end Overlay

-- =================================================================== by walks

/-- A record, its position aside. -/
def StateUpdate.unplaced (update : StateUpdate P) : StateUpdate P := { update with position := 0 }

namespace Machine

variable [StateObject P] [ReducerState R] {machine : Machine P R} {ledger : Ledger P}

/-- A walk that succeeds and does nothing but consume, and close groups in
between, has consumed one substate at a time. -/
theorem takeAll_of_steps {final : Run P R} :
    ∀ {walked : List Instruction} {targets : List SubstateRef} {position : Nat} {run : Run P R},
      walked.filter (· ≠ .close) = targets.map .down →
      machine.steps ledger position walked run = (.ok (), final) →
      ∃ founds records, run.overlay.takeAll ledger targets = .ok (founds, final.overlay)
        ∧ final.reduction.updates = run.reduction.updates ++ records
        ∧ records.map StateUpdate.unplaced = founds.map (.ofDown 0) := by
  intro walked
  induction walked with
  | nil =>
      intro targets position run downs hsteps
      obtain rfl := List.map_eq_nil_iff.mp downs.symm
      cases hsteps
      exact ⟨[], [], rfl, (List.append_nil _).symm, rfl⟩
  | cons instruction walked ih =>
      intro targets position run downs hsteps
      rw [steps] at hsteps
      split at hsteps
      · cases hsteps
      · next after applied =>
          obtain ⟨updates, overlay, applies, hoverlay, hupdates⟩ := applies_of_step applied
          by_cases closes : instruction = .close
          · -- a close records nothing and consumes nothing
            subst closes
            obtain ⟨founds, records, taken, hrecords, same⟩ := ih downs hsteps
            cases applies with
            | close =>
                rw [hoverlay] at taken
                rw [hupdates, List.append_nil] at hrecords
                exact ⟨founds, records, taken, hrecords, same⟩
          · -- so it is the next of the consuming ones
            rw [List.filter_cons_of_pos (by simpa using closes)] at downs
            obtain ⟨target, rest, rfl, rfl, others⟩ := List.map_eq_cons_iff.mp downs.symm
            obtain ⟨founds, records, taken, hrecords, same⟩ := ih others.symm hsteps
            cases applies with
            | @down target found look =>
                rw [hoverlay] at taken
                rw [hupdates, List.append_assoc] at hrecords
                refine ⟨found :: founds, _, Overlay.takeAll_cons look taken, hrecords, ?_⟩
                rw [List.map_append, same]
                rfl

-- =============================================================== one by one

/-- What became of a run is what consuming substates one at a time makes of
it. Taken in turn they are all there, and leave that overlay and those
records; and so does any walk under any rules that consumes them by
instructions of their own and succeeds, positions aside. -/
structure OneByOne (ledger : Ledger P) (position : Nat) (run after : Run P R)
    (targets : List SubstateRef) : Prop where
  taken : ∃ founds, run.overlay.takeAll ledger targets = .ok (founds, after.overlay)
    ∧ after.reduction.group = run.reduction.group ++ founds.map (.ofDown position)
  walked : ∀ (other : Machine P R) (start : Nat) (instructions : List Instruction)
      (before final : Run P R),
    before.overlay = run.overlay → instructions.filter (· ≠ .close) = targets.map .down →
    other.steps ledger start instructions before = (.ok (), final) →
    final.overlay = after.overlay
      ∧ ∃ records swept, final.reduction.updates = before.reduction.updates ++ records
        ∧ after.reduction.group = run.reduction.group ++ swept
        ∧ records.map StateUpdate.unplaced = swept.map StateUpdate.unplaced

/-- References that can be taken one after the other, with what they record,
make a sweep instruction by instruction. -/
theorem oneByOne_of_takeAll {position : Nat} {run after : Run P R} {targets : List SubstateRef}
    {founds : List (Found P)}
    (taken : run.overlay.takeAll ledger targets = .ok (founds, after.overlay))
    (recorded : after.reduction.group = run.reduction.group ++ founds.map (.ofDown position)) :
    OneByOne ledger position run after targets where
  taken := ⟨founds, taken, recorded⟩
  walked := by
    intro other start instructions before final same downs hsteps
    obtain ⟨founds', records, taken', hrecords, hunplaced⟩ := other.takeAll_of_steps downs hsteps
    rw [same, taken] at taken'
    obtain ⟨rfl, hoverlay⟩ := Prod.mk.inj (Except.ok.inj taken')
    refine ⟨hoverlay.symm, records, _, hrecords, recorded, ?_⟩
    rw [hunplaced, List.map_map]
    rfl

-- ================================================================== the scans

/-- What a consuming scan has done whose procedure pulled the first part of
what was offered and left the rest. -/
structure Swept (machine : Machine P R) (ledger : Ledger P) (position : Nat)
    (index : SubstateIndex) (run after : Run P R)
    (first rest : List (Except ExecutionError (ScanEntry P))) : Prop extends
    machine.HandsOver ledger (.scan ledger .downIndex index run) first rest where
  overlay : after.overlay = run.overlay.consumeAll (first.filterMap Except.toOption)
  group : after.reduction.group
    = run.reduction.group ++ (first.filterMap Except.toOption).map (.ofPull position)
  groups : after.reduction.groups = run.reduction.groups
  /-- What is consumed could have been consumed one at a time. -/
  oneByOne : ∀ targets, ScanEntry.Refer (first.filterMap Except.toOption) targets →
    OneByOne ledger position run after targets
  refer : run.overlay.slots.length ≤ UInt32.size →
    ∃ targets, ScanEntry.Refer (first.filterMap Except.toOption) targets
  /-- The next scan offers the rest, after what could not be decoded. -/
  left : after.overlay.scan ledger index = first.filter (!·.isOk) ++ rest

/-- A reading scan leaves overlay and records as they are, whether it succeeds
or not. -/
theorem kept_of_readIndex {position : Nat} {index : SubstateIndex} {run after : Run P R}
    {result : Except ExecutionError Unit}
    (h : machine.step ledger position (.readIndex index) run = (result, after)) :
    after.overlay = run.overlay ∧ after.reduction.group = run.reduction.group
      ∧ after.reduction.groups = run.reduction.groups := by
  rw [step_eq, demand] at h
  split at h
  · cases h
    exact ⟨rfl, rfl, rfl⟩
  · split at h
    · dsimp only [answer] at h
      split at h
      · next cause left failed =>
          cases h
          obtain ⟨hoverlay, hreduction⟩ := reduce_error failed
          rw [hreduction]
          exact ⟨hoverlay, rfl, rfl⟩
      · next pulled left performed =>
          cases h
          obtain ⟨hoverlay, hreduction⟩ := reduce_ok performed
          rw [hreduction]
          exact ⟨hoverlay, rfl, rfl⟩
    · cases h
      exact ⟨rfl, rfl, rfl⟩

/-- A consuming scan that succeeds comes to the same as consuming, one by
one, what it handed over. -/
theorem swept_of_step {position : Nat} {index : SubstateIndex} {run after : Run P R}
    (once : ((ledger.store.scan index).map RawSubstate.id).Nodup)
    (agrees : ∀ raw ∈ ledger.store.scan index, ledger.store.substate? raw.id = some raw.encoding)
    (h : machine.step ledger position (.downIndex index) run = (.ok (), after)) :
    ∃ first rest, machine.Swept ledger position index run after first rest := by
  obtain ⟨first, rest, hands, pulled⟩ := machine.exists_handed_pulls ledger index run
  obtain ⟨updates, overlay, applies, hoverlay, hupdates⟩ := applies_of_step h
  cases applies with
  | downIndex known =>
      have group := group_of_step (by simp) h hupdates
      -- what is pulled was offered, and no two offers have one source
      have live : ∀ entry ∈ machine.pulls ledger index run,
          .ok entry ∈ run.overlay.scan ledger index := fun entry => offered_of_mem_pulls
      have apart : ((machine.pulls ledger index run).map ScanEntry.source).Nodup :=
        (pulls_sources_sublist index run).nodup (Overlay.scanSources_nodup once _)
      rw [pulled] at hoverlay group live apart
      refine ⟨first, rest, hands, hoverlay, group, groups_of_step (by simp) h, ?_, ?_, ?_⟩
      · -- one at a time, each finds what was offered
        intro targets refer
        have taken := Overlay.takeAll_of_live refer (fun entry hentry target refers =>
          Overlay.look_of_offered agrees (live entry hentry) refers) apart
        rw [← hoverlay] at taken
        refine oneByOne_of_takeAll taken (group.trans ?_)
        rw [List.map_map]
        rfl
      · exact ScanEntry.exists_refer fun entry hentry =>
          Overlay.known_of_mem_scan (live entry hentry)
      · rw [hoverlay]
        exact Overlay.scan_consumeAll once hands.offered

variable {store : CommittedStore} {ctx : Context} {instructions : List Instruction}
  {position : Nat} {run : Run P R}

/-- Scans offer what is live, and take exactly what was pulled. What a scan
offers where a run has been reached is what the instructions before created
and the store holds, less what they consumed. A reading scan changes neither
overlay nor records. A consuming scan that succeeds, over a store whose
cursor yields each id once and agrees with look-ups, has done what consuming
the substates pulled one at a time would have done, and leaves the others to
the next scan. -/
theorem scans_take_what_was_pulled
    (reached : machine.Reached store ctx instructions position run) (index : SubstateIndex) :
    run.overlay.scan ⟨store, machine.format⟩ index
        = machine.liveOffers store ctx instructions position index
      ∧ (∀ result after,
          machine.step ⟨store, machine.format⟩ position (.readIndex index) run = (result, after) →
          after.overlay = run.overlay ∧ after.reduction.group = run.reduction.group
            ∧ after.reduction.groups = run.reduction.groups)
      ∧ (((store.scan index).map RawSubstate.id).Nodup →
          (∀ raw ∈ store.scan index, store.substate? raw.id = some raw.encoding) →
          ∀ after,
            machine.step ⟨store, machine.format⟩ position (.downIndex index) run
              = (.ok (), after) →
            ∃ first rest,
              machine.Swept ⟨store, machine.format⟩ position index run after first rest) :=
  ⟨scan_eq_liveOffers reached index, fun _ _ h => kept_of_readIndex h,
    fun once agrees _ h => swept_of_step once agrees h⟩

end Machine

namespace Token

-- ======================================================== on the token ledger

/-- Committed state with tokens twice, and an encoding between them that
breaks off. -/
def mixedHoldings : Snapshot :=
  .ofLists [(.stored [1], fiveTokens), (.stored [2], [2, 7]), (.stored [3], fiveTokens)] [] [] []

/-- Pulls three substates, passing over what cannot be decoded. -/
def pullThree : Rule := anyone .void (.substate .downIndex tokensTag) [.pull (some 3) true, .clear]

/-- The token ledger where scans that consume stop at three. -/
def sweeper : Machine Object Holding := ⟨Rule.table (baseRules ++ [pullThree]), format, .free⟩

/-- Creates tokens, hands them on, and consumes tokens by a scan. -/
def handOnAndSweep : List Instruction := [
  .up (.stored [5]) fiveTokens, .close,
  .down (.created 0), .up (.stored [6]) fiveTokens, .close,
  .downIndex allTokens]

end Token

namespace Machine

open Token

/-- Tokens created here and tokens committed before, with an encoding that
breaks off behind them: three offers are pulled and two consumed, as two
instructions would have done, and the broken one is offered again. -/
theorem mixed_tokens_swept :
    ∃ run after founds,
      sweeper.Reached mixedHoldings.toStore systemContext handOnAndSweep 5 run
        ∧ sweeper.step ⟨mixedHoldings.toStore, sweeper.format⟩ 5 (.downIndex allTokens) run
          = (.ok (), after)
        ∧ run.overlay.takeAll ⟨mixedHoldings.toStore, sweeper.format⟩
            [.created 1, .committed (.stored [1])] = .ok (founds, after.overlay)
        ∧ after.reduction.group = run.reduction.group ++ founds.map (.ofDown 5)
        ∧ (after.overlay.scan ⟨mixedHoldings.toStore, sweeper.format⟩ allTokens).map
            (·.map ScanEntry.id)
          = [.error (.deserialize truncated), .ok (.stored [3])] := by
  let ledger : Ledger Object := ⟨mixedHoldings.toStore, sweeper.format⟩
  let start : Run Object Holding := ⟨.empty, .start, systemContext, .blank⟩
  let walked := sweeper.steps ledger 0 (handOnAndSweep.take 5) start
  let swept := sweeper.step ledger 5 (.downIndex allTokens) walked.2
  have walk : walked.1 = .ok () := by decide +kernel
  have step : swept.1 = .ok () := by decide +kernel
  have handed :
      (sweeper.handed ledger (.scan ledger .downIndex allTokens walked.2)).length = 3 := by
    decide +kernel
  have sources : (((walked.2.overlay.scan ledger allTokens).take 3).filterMap
      Except.toOption).map ScanEntry.source = [.created 1, .committed (.stored [1])] := by
    decide +kernel
  have remains : (((walked.2.overlay.scan ledger allTokens).take 3).filter (!·.isOk)
      ++ (walked.2.overlay.scan ledger allTokens).drop 3).map (·.map ScanEntry.id)
      = [.error (.deserialize truncated), .ok (.stored [3])] := by
    decide +kernel
  have reached : sweeper.Reached mixedHoldings.toStore systemContext handOnAndSweep 5 walked.2 :=
    reached_of_walk (by decide) rfl walk
  have applied : sweeper.step ledger 5 (.downIndex allTokens) walked.2 = (.ok (), swept.2) :=
    Prod.ext step rfl
  obtain ⟨-, -, sweeps⟩ := scans_take_what_was_pulled reached allTokens
  obtain ⟨first, rest, hswept⟩ := sweeps (mixedHoldings.scan_ids_nodup allTokens)
    (fun raw hraw => (Snapshot.mem_scan_iff.mp hraw).1) swept.2 applied
  have offered : walked.2.overlay.scan ledger allTokens = first ++ rest := hswept.offered
  -- three were handed over, of which two could be decoded
  have three : first.length = 3 := by
    rw [hswept.handed, List.length_map] at handed
    exact handed
  have refer : ScanEntry.Refer (first.filterMap Except.toOption)
      [.created 1, .committed (.stored [1])] := by
    rw [offered, List.take_left' three] at sources
    rw [ScanEntry.Refer, ← List.forall₂_map_left_iff, sources]
    exact .cons (.created 1) (.cons (.committed _) .nil)
  obtain ⟨founds, taken, recorded⟩ := (hswept.oneByOne _ refer).taken
  refine ⟨walked.2, swept.2, founds, reached, applied, taken, recorded, ?_⟩
  rw [offered, List.take_left' three, List.drop_left' three] at remains
  rw [hswept.left]
  exact remains

end Machine

end LedgerCore
