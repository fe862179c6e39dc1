/-
What the id of a candidate is taken from. The id is the digest of
`CandidateId.encoding`, a name and a schedule laid out as one byte string. That
string says which name and which schedule it was made of, so two candidates
share an id only if the digest takes two byte strings for one.

# Where an encoding ends

A name may hold any bytes, also those of an epoch or of a threshold, so it is
not enough that every part has an encoding of its own. What has to be shown is
that no bytes can move from one part into the next. `Bytes.Delimited` says so of
an encoding: two of its strings, each with anything behind it, are the same
bytes only if they encode the same and have the same behind them.

- A number of a fixed width is delimited (`delimited_littleEndian`).
- A list is delimited by its length in front of it, as long as its elements are
  delimited (`Delimited.counted`). This is the induction over the list; without
  the length, one list would begin with another.

The encoding of a candidate is a row of such parts, so it is delimited as a whole
(`delimited_encoding`). Being determined by it and being no beginning of another
are both special cases.
-/
import LedgerCore.Fork.CandidateId

namespace LedgerCore

-- ========================================================== delimited encodings

namespace Bytes

variable {α : Type}

/-- Where an encoding ends can be told from its bytes alone: whatever is behind
two of them, the same bytes hold the same and have the same behind it. -/
def Delimited (fits : α → Prop) (encode : α → Bytes) : Prop :=
  ∀ ⦃a b : α⦄ ⦃rest rest' : Bytes⦄, fits a → fits b →
    encode a ++ rest = encode b ++ rest' → a = b ∧ rest = rest'

/-- Numbers of one width need no delimiter. -/
theorem delimited_littleEndian (width : Nat) :
    Delimited (fun n => n < Nat.pow 256 width) (littleEndian width) := by
  intro a b rest rest' ha hb h
  obtain ⟨same, behind⟩ := List.append_inj h (by simp)
  refine ⟨?_, behind⟩
  rw [← toNatLE_littleEndian ha, ← toNatLE_littleEndian hb, same]

variable {fits : α → Prop} {encode : α → Bytes}

/-- Two lists of one length, element by element. -/
theorem Delimited.flatMap (h : Delimited fits encode) {l l' : List α} {rest rest' : Bytes}
    (hl : ∀ a ∈ l, fits a) (hl' : ∀ a ∈ l', fits a) (same : l.length = l'.length)
    (hbytes : l.flatMap encode ++ rest = l'.flatMap encode ++ rest') :
    l = l' ∧ rest = rest' := by
  induction l generalizing l' with
  | nil =>
      obtain rfl : l' = [] := List.length_eq_zero_iff.mp same.symm
      exact ⟨rfl, hbytes⟩
  | cons a l ih =>
      cases l' with
      | nil => cases same
      | cons a' l' =>
          simp only [List.flatMap_cons, List.append_assoc] at hbytes
          simp only [List.forall_mem_cons] at hl hl'
          obtain ⟨heq, htail⟩ := h hl.1 hl'.1 hbytes
          obtain ⟨hrest, behind⟩ := ih hl.2 hl'.2 (Nat.succ.inj same) htail
          exact ⟨by rw [heq, hrest], behind⟩

/-- A list with its length in front of it. -/
theorem Delimited.counted (h : Delimited fits encode) (width : Nat) :
    Delimited (fun l : List α => l.length < Nat.pow 256 width ∧ ∀ a ∈ l, fits a)
      fun l => littleEndian width l.length ++ l.flatMap encode := by
  rintro l l' rest rest' ⟨hlength, hl⟩ ⟨hlength', hl'⟩ hbytes
  simp only [List.append_assoc] at hbytes
  obtain ⟨same, htail⟩ := delimited_littleEndian width hlength hlength' hbytes
  exact h.flatMap hl hl' same htail

/-- Bytes with their number in front of them. -/
theorem delimited_counted (width : Nat) :
    Delimited (fun bytes : Bytes => bytes.length < Nat.pow 256 width)
      fun bytes => littleEndian width bytes.length ++ bytes := by
  have byte : Delimited (fun _ => True) fun b : UInt8 => [b] := by
    intro a b rest rest' _ _ h
    simpa using h
  simpa using byte.counted width

/-- What is delimited begins with nothing but itself. -/
theorem Delimited.prefix_iff (h : Delimited fits encode) {a b : α} (ha : fits a) (hb : fits b) :
    encode a <+: encode b ↔ a = b := by
  constructor
  · rintro ⟨rest, hrest⟩
    have hbytes : encode a ++ rest = encode b ++ [] := by rw [hrest, List.append_nil]
    exact (h ha hb hbytes).1
  · rintro rfl
    exact List.prefix_rfl

end Bytes

-- ======================================================================= names

/-- Listing the bytes of an array goes on from those listed before, which are
kept in reverse. -/
private theorem loop_eq_of_listed {bytes : ByteArray} {i : Nat} {listed : List UInt8}
    (h : listed = (bytes.data.toList.take i).reverse) :
    ByteArray.toList.loop bytes i listed = bytes.data.toList := by
  fun_induction ByteArray.toList.loop bytes i listed with
  | case1 i listed inside ih =>
      apply ih
      have here : bytes.data.toList[i]? = some (bytes.get! i) := by
        show bytes.data.toList[i]? = some bytes.data[i]!
        have hlt : i < bytes.data.size := inside
        rw [Array.getElem?_toList, getElem!_pos bytes.data i hlt, Array.getElem?_eq_getElem hlt]
      rw [List.take_add_one, here, h]
      simp
  | case2 i listed beyond =>
      have all : bytes.data.toList.length ≤ i := by simpa using beyond
      rw [h, List.reverse_reverse, List.take_of_length_le all]

private theorem toList_eq (bytes : ByteArray) : bytes.toList = bytes.data.toList :=
  loop_eq_of_listed rfl

theorem length_toUTF8 (text : String) : text.toUTF8.toList.length = text.utf8ByteSize := by
  rw [toList_eq]
  rfl

/-- A text is determined by its bytes. -/
theorem eq_of_toUTF8_eq {text text' : String}
    (h : text.toUTF8.toList = text'.toUTF8.toList) : text = text' := by
  rw [toList_eq, toList_eq] at h
  exact String.toByteArray_inj.mp (ByteArray.ext (Array.toList_inj.mp h))

-- ================================================================== candidates

namespace CandidateId

/-- A candidate as it is encoded: a name and a schedule. -/
abbrev Described := String × CandidateSchedule

/-- The lengths of a name and of a list of thresholds are written in eight bytes
each. Nothing that is held in memory is longer than that. -/
def Fits (described : Described) : Prop :=
  described.1.utf8ByteSize < 0x10000000000000000
    ∧ described.2.thresholds.length < 0x10000000000000000

instance (described : Described) : Decidable (Fits described) :=
  inferInstanceAs (Decidable (_ ∧ _))

/-- A threshold takes the same number of bytes, whatever its numbers. -/
theorem delimited_threshold : Bytes.Delimited (fun _ => True) encodeThreshold := by
  rintro ⟨stake, epochs⟩ ⟨stake', epochs'⟩ rest rest' _ _ hbytes
  simp only [encodeThreshold, List.append_assoc] at hbytes
  obtain ⟨hstake, htail⟩ :=
    Bytes.delimited_littleEndian 2 stake.toNat_lt stake'.toNat_lt hbytes
  obtain ⟨hepochs, behind⟩ :=
    Bytes.delimited_littleEndian 8 epochs.lt_limit epochs'.lt_limit htail
  rw [UInt16.toNat_inj.mp hstake, EpochSpan.ext hepochs]
  exact ⟨rfl, behind⟩

/-- The parts of an encoding, each in front of all that is behind it. -/
theorem encoding_append (name : String) (schedule : CandidateSchedule) (rest : Bytes) :
    encoding name schedule ++ rest
      = (.littleEndian 8 name.toUTF8.toList.length ++ name.toUTF8.toList)
        ++ (.littleEndian 8 schedule.minEpoch.toNat
          ++ (.littleEndian 8 schedule.maxEpoch.toNat
            ++ ((.littleEndian 8 schedule.thresholds.length
              ++ schedule.thresholds.flatMap encodeThreshold) ++ rest))) := by
  simp only [encoding, List.append_assoc]

/-- No bytes of an encoding can be taken for those of another part, or for those
of what is behind it. -/
theorem delimited_encoding :
    Bytes.Delimited Fits fun described => encoding described.1 described.2 := by
  rintro ⟨name, first, last, thresholds⟩ ⟨name', first', last', thresholds'⟩ rest rest'
    ⟨hname, hthresholds⟩ ⟨hname', hthresholds'⟩ hbytes
  rw [encoding_append, encoding_append] at hbytes
  rw [← length_toUTF8] at hname hname'
  obtain ⟨htext, h⟩ := Bytes.delimited_counted 8 hname hname' hbytes
  obtain ⟨hfirst, h⟩ := Bytes.delimited_littleEndian 8 first.lt_limit first'.lt_limit h
  obtain ⟨hlast, h⟩ := Bytes.delimited_littleEndian 8 last.lt_limit last'.lt_limit h
  obtain ⟨hlist, behind⟩ := delimited_threshold.counted 8 ⟨hthresholds, fun _ _ => trivial⟩
    ⟨hthresholds', fun _ _ => trivial⟩ h
  dsimp only at htext hfirst hlast hlist
  rw [eq_of_toUTF8_eq htext, Epoch.ext hfirst, Epoch.ext hlast, hlist]
  exact ⟨rfl, behind⟩

end CandidateId

/-- Two byte strings that the digest takes for one. -/
def Blake3.Collide (bytes bytes' : Bytes) : Prop :=
  bytes ≠ bytes' ∧ Blake3.digest bytes = Blake3.digest bytes'

namespace CandidateId

/-- What is hashed tells candidates apart: the same bytes mean the same name and
the same schedule, and no candidate's bytes begin with those of another. So the
ids of two candidates are the same only by a collision of the digest. -/
theorem candidates_told_apart {a b : Described} (ha : Fits a) (hb : Fits b) :
    (encoding a.1 a.2 = encoding b.1 b.2 ↔ a = b)
      ∧ (encoding a.1 a.2 <+: encoding b.1 b.2 ↔ a = b)
      ∧ (compute a.1 a.2 = compute b.1 b.2 ↔
          a = b ∨ Blake3.Collide (encoding a.1 a.2) (encoding b.1 b.2)) := by
  have begins : encoding a.1 a.2 <+: encoding b.1 b.2 ↔ a = b :=
    delimited_encoding.prefix_iff ha hb
  have same : encoding a.1 a.2 = encoding b.1 b.2 ↔ a = b :=
    ⟨fun h => begins.mp (h ▸ List.prefix_rfl), fun h => by rw [h]⟩
  refine ⟨same, begins, ?_, ?_⟩
  · intro h
    by_cases heq : a = b
    · exact .inl heq
    · exact .inr ⟨fun hbytes => heq (same.mp hbytes), congrArg hash h⟩
  · rintro (rfl | ⟨-, collision⟩)
    · rfl
    · exact CandidateId.ext collision

/-- Half of the stake for two epochs. -/
def halfForTwo : Threshold := ⟨5000, ⟨2, by decide⟩⟩

/-- A candidate with that threshold only. -/
def oneThreshold : Described := ("second", ⟨.genesis, .last, [halfForTwo]⟩)

/-- The same candidate with one threshold more, whose bytes are those of the
other with some put behind them, but for the number of thresholds. -/
def twoThresholds : Described := ("second", ⟨.genesis, .last, [halfForTwo, halfForTwo]⟩)

/-- A schedule with one threshold and one with that and another: neither
encoding begins the other, and the ids are the same only if the hash
collides. -/
theorem added_threshold_told_apart :
    Fits oneThreshold ∧ Fits twoThresholds
      ∧ ¬ encoding oneThreshold.1 oneThreshold.2 <+: encoding twoThresholds.1 twoThresholds.2
      ∧ (compute oneThreshold.1 oneThreshold.2 = compute twoThresholds.1 twoThresholds.2 →
          Blake3.Collide (encoding oneThreshold.1 oneThreshold.2)
            (encoding twoThresholds.1 twoThresholds.2)) := by
  have fits : Fits oneThreshold := by decide
  have fits' : Fits twoThresholds := by decide
  have differ : oneThreshold ≠ twoThresholds := by decide
  obtain ⟨-, begins, ids⟩ := candidates_told_apart fits fits'
  exact ⟨fits, fits', fun h => differ (begins.mp h), fun h => (ids.mp h).resolve_left differ⟩

end CandidateId

end LedgerCore
