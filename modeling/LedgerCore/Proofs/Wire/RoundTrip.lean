/-
Reading undoes writing, for everything that goes over the wire.

# What fits

A text is refused if it is nested too deeply. Most types are nowhere near that
(`Shallow`). The names of substates are, as a virtual one holds its parent, and
so are the instructions that mention them. A name takes two levels for each
parent (`depth_toWire_le`), so that one with up to 62 of them can be read.

# What follows

Where reading undoes writing, different values are written differently, and
text that was accepted is written in a form that stays as it is when it is read
and written again, whatever the spelling was at first (`Exact`).
-/
import LedgerCore.Proofs.Wire.Settings

namespace LedgerCore

open Json

namespace Wire

-- ==================================================================== what fits

/-- A type whose values are never nested too deeply to be read. -/
class Shallow (α : Type) [Wire α] : Prop where
  fits : ∀ a : α, Fits a

/-- What may be missing nests no deeper than what is there. -/
theorem depth_option_le {α : Type} [Wire α] {n : Nat} (h : ∀ a : α, (encode a).depth ≤ n)
    (a : Option α) : (encode a).depth ≤ n := by
  cases a with
  | none => exact Nat.zero_le n
  | some a => exact h a

instance : Shallow Epoch := ⟨fun _ => by simp [Fits, encode]⟩

instance : Shallow Amount := ⟨fun _ => by simp [Fits, encode]⟩

instance : Shallow TypeTag := ⟨fun _ => by simp [Fits, encode]⟩

instance : Shallow Hash := ⟨fun _ => by simp [Fits, encode, maxNesting]⟩

instance : Shallow ResourceAddr := ⟨fun _ => by simp [Fits, encode, maxNesting]⟩

instance : Shallow PermissionLevel := ⟨fun _ => by simp [Fits, encode]⟩

instance : Shallow SubstateIndex := ⟨fun _ => by simp [Fits, encode, maxNesting]⟩

instance : Shallow Txn := ⟨fun _ => by simp [Fits, encode, maxNesting]⟩

instance : Shallow ResourceDefinition where
  fits definition := by
    have owner : (encode definition.owner).depth ≤ 126 :=
      depth_option_le (fun key => Value.depth_ofBytes_le key.bytes 125) definition.owner
    show (Value.record _).depth ≤ 126 + 1
    rw [Value.depth_record_le]
    simp only [List.forall_mem_cons]
    exact ⟨Value.depth_ofBytes_le _ 125, Nat.zero_le _, owner, nofun⟩

instance : Shallow OpSignature where
  fits signature := by
    have target : (encode signature.target).depth ≤ 126 :=
      depth_option_le (fun _ => Nat.zero_le 126) signature.target
    show (Value.record _).depth ≤ 126 + 1
    rw [Value.depth_record_le]
    simp only [List.forall_mem_cons]
    exact ⟨Nat.zero_le _, target, nofun⟩

instance : Shallow CandidateSchedule :=
  ⟨fun _ => by simp [Fits, encode, encodeList, maxNesting]⟩

instance : Shallow VotingResult := ⟨fun _ => by simp [Fits, encode, maxNesting]⟩

instance : Shallow Settings where
  fits settings := by
    have candidate : ∀ fork : CandidateSettings, fork.toWire.depth ≤ 125 := by
      intro fork
      simp [CandidateSettings.toWire, CandidateSettings.thresholdToWire, encode]
    have forks : settings.forks.toWire.depth ≤ 126 := by
      unfold ForkSettings.toWire
      cases settings.forks.candidate with
      | none => simp [FixedForkSettings.toWire, encode]
      | some fork => simp [FixedForkSettings.toWire, encode, candidate fork]
    have engine : settings.engine.toWire.depth ≤ 126 := by
      simp [EngineSettings.toWire, encode]
    show (Value.record _).depth ≤ 126 + 1
    rw [Value.depth_record_le]
    simp only [List.forall_mem_cons]
    exact ⟨forks, engine, nofun⟩

/-- A name takes two levels for each parent, and at most two for what is not
virtual. -/
theorem depth_toWire_le (id : SubstateId) : id.toWire.depth ≤ 2 * id.depth + 2 := by
  induction id with
  | stored address =>
      show (Value.record _).depth ≤ 1 + 1
      simp
  | created index =>
      show (Value.record _).depth ≤ 1 + 1
      simp [encode]
  | virtual parent key ih =>
      have length : 2 * (parent.virtual key).depth + 2 = (2 * parent.depth + 2) + 1 + 1 := rfl
      rw [length, SubstateId.toWire, Value.tagged]
      simp [ih]

-- ================================================================== what follows

/-- The text of a value, once it is read and written again. -/
def reprint (α : Type) [Wire α] (text : String) : Option String :=
  (parse? text : Option α).map print

/-- The wire form of a type says what was written: it is read as that wherever
it fits, nothing else is written like it, and no text that is accepted is
written in more than one way from then on. -/
structure Exact (α : Type) [Wire α] : Prop where
  undone : ∀ a : α, Fits a → parse? (print a) = some a
  distinct : ∀ a b : α, print a = print b → a = b
  settled : ∀ (text : String) (a : α), parse? text = some a → Fits a →
    reprint α (print a) = some (print a)

/-- A form that is read back with room for nesting is read back from its
text. -/
theorem exact_of_lawful (α : Type) [Wire α] [Lawful α] : Exact α where
  undone _ := parse?_print
  distinct _ _ same := print_injective same
  settled _ _ _ fits := by
    rw [reprint, parse?_print fits]
    rfl

/-- Reading undoes writing for every type that goes over the wire, however a
value is made up, unless it is nested too deeply; and of these types only
names and instructions can be. -/
theorem reading_undoes_writing :
    (Exact Epoch ∧ Exact Amount ∧ Exact TypeTag ∧ Exact Hash ∧ Exact SubstateId
        ∧ Exact ResourceAddr ∧ Exact PermissionLevel ∧ Exact Txn ∧ Exact Instruction
        ∧ Exact SubstateIndex ∧ Exact OpSignature ∧ Exact ResourceDefinition
        ∧ Exact CandidateSchedule ∧ Exact VotingResult ∧ Exact Settings)
      ∧ Shallow Epoch ∧ Shallow Amount ∧ Shallow TypeTag ∧ Shallow Hash ∧ Shallow ResourceAddr
        ∧ Shallow PermissionLevel ∧ Shallow Txn ∧ Shallow SubstateIndex ∧ Shallow OpSignature
        ∧ Shallow ResourceDefinition ∧ Shallow CandidateSchedule ∧ Shallow VotingResult
        ∧ Shallow Settings := by
  refine ⟨?_, ?_⟩
  · refine ⟨?_, ?_, ?_, ?_, ?_, ?_, ?_, ?_, ?_, ?_, ?_, ?_, ?_, ?_, ?_⟩ <;> exact exact_of_lawful _
  · refine ⟨?_, ?_, ?_, ?_, ?_, ?_, ?_, ?_, ?_, ?_, ?_, ?_, ?_⟩ <;> infer_instance

/-- A name with two parents, inside of an instruction. -/
def nestedDown : Instruction := .down (.virtual (.virtual (.virtual (.stored [1, 0xff]) [2]) []))

/-- Settings with a name that has to be escaped. -/
def oddlyNamed : Settings := ⟨⟨[⟨"a\"\\\n\x01é", .genesis⟩], none⟩, .standard⟩

/-- Both are read back from their text. -/
theorem nested_and_escaped_read_back :
    print nestedDown = "\x7b\"VirtualDown\":\x7b\"Virtual\":\x7b\"parent\":\x7b\"Virtual\":"
        ++ "\x7b\"parent\":\x7b\"Stored\":[1,255]\x7d,\"key\":[2]\x7d\x7d,\"key\":[]\x7d\x7d\x7d"
      ∧ parse? (print nestedDown) = some nestedDown
      ∧ print oddlyNamed = "\x7b\"forks\":\x7b\"fixed\":[\x7b\"name\":\"a\\\"\\\\\\n\\u0001é\","
        ++ "\"epoch\":0\x7d]\x7d,\"engine\":\x7b\"max_signatures_per_txn\":50,\"fixed_fee\":0,"
        ++ "\"fee_per_byte\":0,\"native_resource\":[1]\x7d\x7d"
      ∧ parse? (print oddlyNamed) = some oddlyNamed := by
  obtain ⟨⟨-, -, -, -, -, -, -, -, instruction, -, -, -, -, -, settings⟩, shallow⟩ :=
    reading_undoes_writing
  obtain ⟨-, -, -, -, -, -, -, -, -, -, -, -, settingsFit⟩ := shallow
  have fits : Fits nestedDown := by
    show (Value.record _).depth ≤ 126 + 1
    rw [Value.depth_record_le]
    exact List.forall_mem_singleton.mpr (Nat.le_trans (depth_toWire_le _) (by decide))
  refine ⟨?_, instruction.undone _ fits, ?_, settings.undone _ (settingsFit.fits _)⟩
  · decide +kernel
  · decide +kernel

end Wire

end LedgerCore
