/-
Type tags and index scans. A tag is the one-byte discriminant that every
substate encoding starts with; rules are looked up by it. An index selects
the substates whose encoding begins with given leading bytes; since an
encoding starts with its type tag, so does an index, and an index built from
leading bytes takes its tag from the first.
-/
import LedgerCore.Bytes

namespace LedgerCore

-- =================================================================== tags

/-- The discriminant of a substate's type. -/
structure TypeTag where
  byte : UInt8
deriving DecidableEq

namespace TypeTag

/-- Two hexadecimal digits behind `0x`. -/
def text (tag : TypeTag) : String := "0x" ++ Bytes.hex [tag.byte]

/-- The form a tag takes inside diagnostics. -/
def diagnostic (tag : TypeTag) : String := "TypeTag(" ++ tag.byte.toNat.repr ++ ")"

instance : Ord TypeTag := ⟨compareOn byte⟩

@[ext] theorem ext {a b : TypeTag} (h : a.byte = b.byte) : a = b := by
  cases a; cases b; simp_all

end TypeTag

-- ================================================================= indexes

/-- A selection of substates by the leading bytes of their encoding. -/
structure SubstateIndex where
  lead : Bytes
  tag : TypeTag
deriving DecidableEq

namespace SubstateIndex

/-- The index of those leading bytes; there is none for no bytes at all. -/
def ofLead? : Bytes → Option SubstateIndex
  | [] => none
  | first :: rest => some ⟨first :: rest, ⟨first⟩⟩

/-- Whether an encoding is selected. -/
def selects (index : SubstateIndex) (encoding : Bytes) : Bool :=
  index.lead.isPrefixOf encoding

/-- The form an index takes inside diagnostics. -/
def diagnostic (index : SubstateIndex) : String :=
  "SubstateIndex \x7b prefix: " ++ Bytes.quoted index.lead
    ++ ", type_tag: " ++ index.tag.diagnostic ++ " \x7d"

/-- An index built from leading bytes carries their first one as its tag. -/
theorem head?_lead_of_ofLead? {lead : Bytes} {index : SubstateIndex}
    (h : ofLead? lead = some index) : index.lead.head? = some index.tag.byte := by
  cases lead <;> simp [ofLead?] at h
  subst h
  rfl

end SubstateIndex

end LedgerCore
