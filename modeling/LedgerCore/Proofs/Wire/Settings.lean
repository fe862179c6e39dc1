/-
The laws of the wire forms of fork schedules, voting results and settings.

Settings are read by a `Reading`, not by the forms of their parts, and every
field may be left out. What was written leaves out just the candidate, if
there is none, and that is what leaving it out means.
-/
import LedgerCore.Proofs.Wire.Instruction
import LedgerCore.Wire.Fork
import LedgerCore.Wire.Settings

namespace LedgerCore

open Json Wire

-- ======================================================================== forks

instance : Lawful Threshold where
  plain threshold := .record (by simp [Lawful.plain])
  present _ := nofun
  decode_encode threshold fits := by
    obtain ⟨inner, fields, inside⟩ := Value.record?_record
      ["required_stake", "epochs_before_enacted"] (.refl _) (by decide) fits
    simp only [List.forall_mem_cons] at inside
    obtain ⟨stake, epochs, -⟩ := inside
    refine bind_eq_some_of fields ?_
    refine bind_eq_some_of (field?_of_lookup rfl stake) ?_
    refine bind_eq_some_of (field?_of_lookup rfl epochs) ?_
    rfl

instance : Lawful CandidateSchedule where
  plain schedule := .record (by
    simp [Lawful.plain, encodeList, Value.plain_map])
  present _ := nofun
  decode_encode schedule fits := by
    obtain ⟨inner, fields, inside⟩ := Value.record?_record
      ["min_epoch", "max_epoch", "thresholds"] (.refl _) (by decide) fits
    simp only [List.forall_mem_cons] at inside
    obtain ⟨first, last, thresholds, -⟩ := inside
    refine bind_eq_some_of fields ?_
    refine bind_eq_some_of (field?_of_lookup rfl first) ?_
    refine bind_eq_some_of (field?_of_lookup rfl last) ?_
    refine bind_eq_some_of rfl (bind_eq_some_of (Value.list?_map thresholds ?_) ?_)
    · exact Lawful.decode_encode
    · rfl

instance : Lawful VotingResult where
  plain result := .record (by simp [Lawful.plain])
  present _ := nofun
  decode_encode result fits := by
    obtain ⟨inner, fields, inside⟩ := Value.record?_record
      ["epoch", "candidate_fork_id", "stake_percentage"] (.refl _) (by decide) fits
    simp only [List.forall_mem_cons] at inside
    obtain ⟨epoch, candidate, stake, -⟩ := inside
    refine bind_eq_some_of fields ?_
    refine bind_eq_some_of (field?_of_lookup rfl epoch) ?_
    refine bind_eq_some_of (field?_of_lookup rfl candidate) ?_
    refine bind_eq_some_of (field?_of_lookup rfl stake) ?_
    rfl

-- ===================================================================== readings

namespace Reading

/-- The fields of a record that fits, each with the room inside. -/
theorem fields?_record (names : List String) {fields : Value.Fields} {room : Nat}
    (h : (fields.map Prod.fst).Sublist names) (distinct : names.Nodup)
    (fits : (Value.record fields).depth ≤ room) :
    ∃ inner, json.fields? names (room, .record fields)
        = some (fields.map fun (name, value) => (name, inner, value))
      ∧ ∀ field ∈ fields, field.2.depth ≤ inner := by
  obtain ⟨inner, rfl, inside⟩ := Value.room_of_record fits
  refine ⟨inner, ?_, inside⟩
  refine bind_eq_some_of (a := fields) ?_ rfl
  show Value.fields? names (.record fields) = some fields
  exact Value.fields?_record h distinct

variable {α : Type} {room : Nat}

/-- A list of settings is read like any list. -/
theorem list?_eq (item? : Nat × Value → Option α) (room : Nat) (value : Value) :
    json.list? item? (room, value) = value.list? (fun room item => item? (room, item)) room := by
  show ((value.items? room >>= fun found => some (found.2.map (found.1, ·))) >>= _) = _
  rw [Value.list?]
  cases value.items? room with
  | none => rfl
  | some found => exact List.mapM_map

/-- A list that fits is read item by item. -/
theorem list?_map {write : α → Value} {item? : Nat × Value → Option α} {values : List α}
    (fits : (Value.array (values.map write)).depth ≤ room)
    (h : ∀ {inner : Nat} (a : α), (write a).depth ≤ inner → item? (inner, write a) = some a) :
    json.list? item? (room, .array (values.map write)) = some values :=
  (list?_eq item? room _).trans (Value.list?_map fits h)

theorem natural?_eq {limit n : Nat} (h : n < limit) :
    json.natural? limit (room, .natural n) = some n := if_pos h

theorem epoch?_eq (epoch : Epoch) : json.epoch? (room, encode epoch) = some epoch :=
  bind_eq_some_of (natural?_eq epoch.lt_limit) (dif_pos epoch.lt_limit)

theorem span?_eq (span : EpochSpan) : json.span? (room, encode span) = some span :=
  bind_eq_some_of (natural?_eq span.lt_limit) (dif_pos span.lt_limit)

theorem text?_eq (text : String) : json.text? (room, .ofString text) = some text :=
  Value.text?_ofString text

theorem fee?_eq (fee : UInt64) : json.fee? (room, .natural fee.toNat) = some fee := by
  rw [fee?, natural?_eq fee.toNat_lt]
  simp

-- ================================================================ fork schedules

/-- A fixed fork is read back, field by field. -/
theorem fixedFork?_toWire (fork : FixedForkSettings) (fits : fork.toWire.depth ≤ room) :
    json.fixedFork? (room, fork.toWire) = some fork := by
  obtain ⟨inner, fields, -⟩ := fields?_record ["name", "epoch"] (.refl _) (by decide) fits
  refine bind_eq_some_of fields ?_
  refine bind_eq_some_of rfl (bind_eq_some_of (text?_eq fork.name) ?_)
  refine bind_eq_some_of rfl (bind_eq_some_of (epoch?_eq fork.epoch) ?_)
  rfl

/-- A threshold is read back as the pair of its numbers. -/
theorem threshold?_toWire (threshold : Threshold)
    (fits : (CandidateSettings.thresholdToWire threshold).depth ≤ room) :
    json.threshold? (room, CandidateSettings.thresholdToWire threshold) = some threshold := by
  obtain ⟨inner, fields, -⟩ :=
    fields?_record ["required_stake", "epochs"] (.refl _) (by decide) fits
  refine bind_eq_some_of fields ?_
  refine bind_eq_some_of rfl (bind_eq_some_of (natural?_eq threshold.requiredStake.toNat_lt) ?_)
  refine bind_eq_some_of rfl (bind_eq_some_of (span?_eq threshold.epochs) ?_)
  show some (Threshold.mk (UInt16.ofNat threshold.requiredStake.toNat) threshold.epochs) = _
  rw [UInt16.ofNat_toNat]

/-- A candidate fork is read back, with all its thresholds. -/
theorem candidate?_toWire (fork : CandidateSettings) (fits : fork.toWire.depth ≤ room) :
    json.candidate? (room, fork.toWire) = some fork := by
  obtain ⟨inner, fields, inside⟩ := fields?_record
    ["name", "min_epoch", "max_epoch", "thresholds"] (.refl _) (by decide) fits
  simp only [List.forall_mem_cons] at inside
  obtain ⟨-, -, -, thresholds, -⟩ := inside
  refine bind_eq_some_of fields ?_
  refine bind_eq_some_of rfl (bind_eq_some_of (text?_eq fork.name) ?_)
  refine bind_eq_some_of rfl (bind_eq_some_of (epoch?_eq fork.schedule.minEpoch) ?_)
  refine bind_eq_some_of rfl (bind_eq_some_of (epoch?_eq fork.schedule.maxEpoch) ?_)
  refine bind_eq_some_of rfl (bind_eq_some_of (list?_map thresholds threshold?_toWire) ?_)
  rfl

theorem optionalCandidate?_toWire (fork : CandidateSettings) (fits : fork.toWire.depth ≤ room) :
    json.optionalCandidate? (room, fork.toWire) = some (some fork) :=
  congrArg (some <$> ·) (candidate?_toWire fork fits)

/-- The forks of settings are read back, whether there is a candidate among
them or not. -/
theorem forks?_toWire (settings : ForkSettings) (fits : settings.toWire.depth ≤ room) :
    json.forks? (room, settings.toWire) = some settings := by
  obtain ⟨fixed, candidate⟩ := settings
  cases candidate with
  | none =>
      obtain ⟨inner, fields, inside⟩ := fields?_record ["fixed", "candidate"]
        (by simp) (by decide) fits
      refine bind_eq_some_of fields ?_
      refine bind_eq_some_of (list?_map (inside _ List.mem_cons_self) fixedFork?_toWire) ?_
      rfl
  | some fork =>
      obtain ⟨inner, fields, inside⟩ :=
        fields?_record ["fixed", "candidate"] (.refl _) (by decide) fits
      simp only [List.forall_mem_cons] at inside
      obtain ⟨hfixed, hcandidate, -⟩ := inside
      refine bind_eq_some_of fields ?_
      refine bind_eq_some_of (list?_map hfixed fixedFork?_toWire) ?_
      refine bind_eq_some_of (optionalCandidate?_toWire fork hcandidate) ?_
      rfl

-- ================================================================== all settings

/-- A resource is read back as written. -/
theorem resource?_encode (addr : ResourceAddr) (fits : (encode addr).depth ≤ room) :
    json.resource? (room, encode addr) = some addr := by
  refine congrArg (ResourceAddr.mk <$> ·) (list?_map fits fun b _ => ?_)
  exact Value.byte?_natural b

/-- The engine's settings are read back, field by field. -/
theorem engine?_toWire (settings : EngineSettings) (fits : settings.toWire.depth ≤ room) :
    json.engine? (room, settings.toWire) = some settings := by
  obtain ⟨inner, fields, inside⟩ := fields?_record
    ["max_signatures_per_txn", "fixed_fee", "fee_per_byte", "native_resource"]
    (.refl _) (by decide) fits
  simp only [List.forall_mem_cons] at inside
  obtain ⟨-, -, -, resource, -⟩ := inside
  have signatures : UInt32.ofNat <$> json.natural? UInt32.size
      (inner, .natural settings.maxSignatures.toNat) = some settings.maxSignatures := by
    rw [natural?_eq settings.maxSignatures.toNat_lt]
    simp
  refine bind_eq_some_of fields ?_
  refine bind_eq_some_of signatures ?_
  refine bind_eq_some_of (fee?_eq settings.fixedFee) ?_
  refine bind_eq_some_of (fee?_eq settings.feePerByte) ?_
  refine bind_eq_some_of (resource?_encode settings.nativeResource resource) ?_
  rfl

end Reading

theorem FixedForkSettings.plain_toWire (fork : FixedForkSettings) : fork.toWire.Plain :=
  .record (by simp [Value.Plain.string, Lawful.plain])

theorem CandidateSettings.plain_thresholdToWire (threshold : Threshold) :
    (thresholdToWire threshold).Plain :=
  .record (by simp [Lawful.plain])

theorem CandidateSettings.plain_toWire (fork : CandidateSettings) : fork.toWire.Plain :=
  .record (by simp [Value.Plain.string, Lawful.plain, Value.plain_map, plain_thresholdToWire])

theorem ForkSettings.plain_toWire (settings : ForkSettings) : settings.toWire.Plain := by
  have fixed : (Value.array (settings.fixed.map FixedForkSettings.toWire)).Plain :=
    Value.plain_map FixedForkSettings.plain_toWire
  unfold toWire
  cases settings.candidate with
  | none => exact .record (by simp [fixed])
  | some fork => exact .record (by simp [fixed, fork.plain_toWire])

theorem EngineSettings.plain_toWire (settings : EngineSettings) : settings.toWire.Plain :=
  .record (by simp [Value.Plain.natural, Lawful.plain])

instance : Lawful Settings where
  plain settings :=
    .record (by simp [settings.forks.plain_toWire, settings.engine.plain_toWire])
  present _ := nofun
  decode_encode settings fits := by
    obtain ⟨inner, fields, inside⟩ :=
      Reading.fields?_record ["forks", "engine"] (.refl _) (by decide) fits
    simp only [List.forall_mem_cons] at inside
    obtain ⟨forks, engine, -⟩ := inside
    refine bind_eq_some_of fields ?_
    refine bind_eq_some_of (Reading.forks?_toWire settings.forks forks) ?_
    refine bind_eq_some_of (Reading.engine?_toWire settings.engine engine) ?_
    rfl

end LedgerCore
