/-
Reading undoes writing: the compact text of a value with plain strings is read
as that value (`ofText?_text`). Everything is by induction on how the value is
made up (`Value.Plain`), with one lemma for the items of an array and one for
the fields of an object, which are read until their bracket or brace is met.

`Value.depth` counts how deeply arrays and objects are nested. Reading text as
a tree does not limit it; reading a tree as something else does.
-/
import LedgerCore.Json.Shape
import LedgerCore.Proofs.Json.Token

namespace LedgerCore.Json.Value

-- =============================================================== plain values

/-- A value whose strings and keys are plain text. -/
inductive Plain : Value → Prop
  | null : Plain null
  | bool (b : Bool) : Plain (bool b)
  | natural (n : Nat) : Plain (natural n)
  | string (s : String) : Plain (ofString s)
  | array {items : List Value} (plain : ∀ item ∈ items, Plain item) : Plain (array items)
  | record {fields : Fields} (plain : ∀ field ∈ fields, Plain field.2) : Plain (record fields)

-- ===================================================================== nesting

mutual

/-- How deeply arrays and objects are nested in a value. -/
def depth : Value → Nat
  | array items => itemsDepth items + 1
  | object fields => fieldsDepth fields + 1
  | _ => 0

@[inherit_doc depth]
def itemsDepth : List Value → Nat
  | [] => 0
  | item :: rest => max item.depth (itemsDepth rest)

@[inherit_doc depth]
def fieldsDepth : List (List Glyph × Value) → Nat
  | [] => 0
  | (_, value) :: rest => max value.depth (fieldsDepth rest)

end

/-- Items nest as deep as the deepest of them. -/
theorem itemsDepth_le_iff {items : List Value} {n : Nat} :
    itemsDepth items ≤ n ↔ ∀ item ∈ items, item.depth ≤ n := by
  induction items with
  | nil => simp [itemsDepth]
  | cons item rest ih => rw [itemsDepth, Nat.max_le, ih, List.forall_mem_cons]

theorem fieldsDepth_le_iff {fields : List (List Glyph × Value)} {n : Nat} :
    fieldsDepth fields ≤ n ↔ ∀ field ∈ fields, field.2.depth ≤ n := by
  induction fields with
  | nil => simp [fieldsDepth]
  | cons field rest ih => rw [fieldsDepth, Nat.max_le, ih, List.forall_mem_cons]

/-- An array takes room for itself, and for each item behind that. -/
@[simp] theorem depth_array_le {items : List Value} {n : Nat} :
    (array items).depth ≤ n + 1 ↔ ∀ item ∈ items, item.depth ≤ n := by
  rw [depth, Nat.add_le_add_iff_right, itemsDepth_le_iff]

@[simp] theorem depth_record_le {fields : Fields} {n : Nat} :
    (record fields).depth ≤ n + 1 ↔ ∀ field ∈ fields, field.2.depth ≤ n := by
  rw [record, depth, Nat.add_le_add_iff_right, fieldsDepth_le_iff, List.forall_mem_map]

@[simp] theorem depth_natural (n : Nat) : (natural n).depth = 0 := rfl

@[simp] theorem depth_ofString (s : String) : (ofString s).depth = 0 := rfl

-- ======================================================================= tokens

variable {items : List Value} {fields : Fields}

/-- The fields of an object with plain keys. -/
def plainFields (fields : Fields) : List (List Glyph × Value) :=
  fields.map fun (key, value) => (Glyph.ofString key, value)

/-- A record is spelled by its fields between braces. -/
theorem tokens_record (fields : Fields) :
    (record fields).tokens = .leftBrace :: (fieldTokens (plainFields fields) ++ [.rightBrace]) := by
  rw [record, tokens]
  rfl

/-- Items are plain if each of them is. -/
theorem plain_itemTokens (h : ∀ item ∈ items, ∀ token ∈ item.tokens, token.Plain) :
    ∀ token ∈ itemTokens items, token.Plain := by
  induction items with
  | nil => exact nofun
  | cons item rest ih =>
      obtain ⟨first, others⟩ := List.forall_mem_cons.mp h
      cases rest with
      | nil => rwa [itemTokens]
      | cons next rest =>
          rw [itemTokens, List.forall_mem_append, List.forall_mem_cons]
          exact ⟨first, trivial, ih others⟩

/-- Fields are plain if what they hold is; their names are texts. -/
theorem plain_fieldTokens (h : ∀ field ∈ fields, ∀ token ∈ field.2.tokens, token.Plain) :
    ∀ token ∈ fieldTokens (plainFields fields), token.Plain := by
  induction fields with
  | nil => exact nofun
  | cons field rest ih =>
      obtain ⟨first, others⟩ := List.forall_mem_cons.mp h
      cases rest with
      | nil =>
          rw [plainFields, List.map_cons, List.map_nil, fieldTokens, List.forall_mem_cons,
            List.forall_mem_cons]
          exact ⟨⟨field.1, rfl⟩, trivial, first⟩
      | cons next rest =>
          rw [plainFields, List.map_cons, List.map_cons, fieldTokens, List.forall_mem_cons,
            List.forall_mem_cons, List.forall_mem_append, List.forall_mem_cons]
          exact ⟨⟨field.1, rfl⟩, trivial, first, trivial, ih others⟩

/-- The tokens of a plain value are plain. -/
theorem Plain.tokens {value : Value} (plain : value.Plain) :
    ∀ token ∈ value.tokens, token.Plain := by
  induction plain with
  | null => exact List.forall_mem_singleton.mpr trivial
  | bool b => exact List.forall_mem_singleton.mpr trivial
  | natural n => exact List.forall_mem_singleton.mpr trivial
  | string s => exact List.forall_mem_singleton.mpr ⟨s, rfl⟩
  | array _ ih =>
      rw [Value.tokens, List.forall_mem_cons, List.forall_mem_append, List.forall_mem_singleton]
      exact ⟨trivial, plain_itemTokens ih, trivial⟩
  | record _ ih =>
      rw [tokens_record, List.forall_mem_cons, List.forall_mem_append, List.forall_mem_singleton]
      exact ⟨trivial, plain_fieldTokens ih, trivial⟩

-- ================================================================= separation

theorem apart_cons {token : Token} {tokens : List Token} (h : token.isNumber = false)
    (apart : Token.Apart tokens) : Token.Apart (token :: tokens) :=
  List.isChain_cons.mpr ⟨fun _ _ number => absurd (h.symm.trans number) nofun, apart⟩

/-- What begins with no number may follow anything. -/
theorem apart_append {before behind : List Token} {token : Token} (h : token.isNumber = false)
    (apart : Token.Apart before) (apart' : Token.Apart (token :: behind)) :
    Token.Apart (before ++ token :: behind) := by
  refine List.isChain_append.mpr ⟨apart, apart', fun _ _ next hnext _ => ?_⟩
  cases hnext
  exact h

/-- Items are kept apart by commas. -/
theorem apart_itemTokens (h : ∀ item ∈ items, Token.Apart item.tokens) :
    Token.Apart (itemTokens items) := by
  induction items with
  | nil => exact List.isChain_nil
  | cons item rest ih =>
      obtain ⟨first, others⟩ := List.forall_mem_cons.mp h
      cases rest with
      | nil => rwa [itemTokens]
      | cons next rest => exact apart_append rfl first (apart_cons rfl (ih others))

/-- Fields are kept apart by commas, and from their names by colons. -/
theorem apart_fieldTokens (h : ∀ field ∈ fields, Token.Apart field.2.tokens) :
    Token.Apart (fieldTokens (plainFields fields)) := by
  induction fields with
  | nil => exact List.isChain_nil
  | cons field rest ih =>
      obtain ⟨first, others⟩ := List.forall_mem_cons.mp h
      cases rest with
      | nil => exact apart_cons rfl (apart_cons rfl first)
      | cons next rest =>
          refine apart_cons rfl (apart_cons rfl (apart_append rfl first ?_))
          exact apart_cons rfl (ih others)

/-- In the compact form no number is right behind another. -/
theorem Plain.apart {value : Value} (plain : value.Plain) : Token.Apart value.tokens := by
  induction plain with
  | null => exact List.isChain_singleton _
  | bool b => exact List.isChain_singleton _
  | natural n => exact List.isChain_singleton _
  | string s => exact List.isChain_singleton _
  | array _ ih =>
      exact apart_cons rfl (apart_append rfl (apart_itemTokens ih) (List.isChain_singleton _))
  | record _ ih =>
      exact apart_cons rfl (apart_append rfl (apart_fieldTokens ih) (List.isChain_singleton _))

-- ====================================================================== reading

/-- The tokens of a value are read as that value, whatever follows. -/
def ReadBack (value : Value) : Prop :=
  ∀ (fuel : Nat) (rest : List Token), 2 * value.tokens.length ≤ fuel →
    read fuel (value.tokens ++ rest) = some (value, rest)

/-- No value begins where an array ends. -/
theorem tokens_eq_cons (value : Value) :
    ∃ first more, value.tokens = first :: more ∧ first ≠ .rightBracket := by
  cases value with
  | _ => exact ⟨_, _, rfl, nofun⟩

/-- No array with items begins where it ends. -/
theorem exists_itemTokens_eq_cons (item : Value) (others : List Value) :
    ∃ first more, itemTokens (item :: others) = first :: more ∧ first ≠ .rightBracket := by
  obtain ⟨first, more, tokens, notClosing⟩ := item.tokens_eq_cons
  cases others with
  | nil => exact ⟨first, more, by rw [itemTokens, tokens], notClosing⟩
  | cons next rest => exact ⟨first, _, by rw [itemTokens, tokens, List.cons_append], notClosing⟩

/-- Fields begin with a name. -/
theorem exists_fieldTokens_eq_cons (field : String × Value) (others : Fields) :
    ∃ more, fieldTokens (plainFields (field :: others))
      = .string (Glyph.ofString field.1) :: more := by
  cases others with
  | nil => exact ⟨_, rfl⟩
  | cons next rest => exact ⟨_, rfl⟩

/-- Items are read back if each of them is, with fuel for twice as many
tokens. -/
theorem readItems_tokens (h : ∀ item ∈ items, ReadBack item) (some : items ≠ []) {fuel : Nat}
    (enough : 2 * (itemTokens items).length < fuel) (rest : List Token) :
    readItems fuel (itemTokens items ++ .rightBracket :: rest) = .some (items, rest) := by
  induction items generalizing fuel with
  | nil => exact absurd rfl some
  | cons item others ih =>
      obtain ⟨first, hothers⟩ := List.forall_mem_cons.mp h
      cases fuel with
      | zero => cases enough
      | succ fuel =>
          cases others with
          | nil =>
              rw [itemTokens] at enough ⊢
              rw [readItems, first fuel _ (by omega)]
              rfl
          | cons next others =>
              have length : (itemTokens (item :: next :: others)).length
                  = item.tokens.length + ((itemTokens (next :: others)).length + 1) := by
                rw [itemTokens, List.length_append, List.length_cons]
              rw [itemTokens, List.append_assoc, List.cons_append, readItems,
                first fuel _ (by omega)]
              have more : 2 * (itemTokens (next :: others)).length < fuel := by omega
              simp [ih hothers (List.cons_ne_nil _ _) more]

/-- Fields are read back if what they hold is. -/
theorem readFields_tokens (h : ∀ field ∈ fields, ReadBack field.2) (some : fields ≠ [])
    {fuel : Nat} (enough : 2 * (fieldTokens (plainFields fields)).length < fuel)
    (rest : List Token) :
    readFields fuel (fieldTokens (plainFields fields) ++ .rightBrace :: rest)
      = .some (plainFields fields, rest) := by
  induction fields generalizing fuel with
  -- only one field: the brace closes
  | nil => exact absurd rfl some
  | cons field others ih =>
      obtain ⟨first, hothers⟩ := List.forall_mem_cons.mp h
      cases fuel with
      | zero => cases enough
      | succ fuel =>
          cases others with
          | nil =>
              have length : (fieldTokens (plainFields [field])).length
                  = field.2.tokens.length + 2 := rfl
              rw [plainFields, List.map_cons, List.map_nil, fieldTokens, List.cons_append,
                List.cons_append, readFields]
              simp [first fuel _ (by omega)]
          -- a comma, and the others
          | cons next others =>
              have length : (fieldTokens (plainFields (field :: next :: others))).length
                  = field.2.tokens.length + (fieldTokens (plainFields (next :: others))).length
                    + 3 := by
                simp only [plainFields, List.map_cons, fieldTokens, List.length_cons,
                  List.length_append]
                omega
              have more : 2 * (fieldTokens (plainFields (next :: others))).length < fuel := by omega
              have behind := ih hothers (List.cons_ne_nil _ _) more
              rw [plainFields, List.map_cons] at behind ⊢
              rw [List.map_cons, fieldTokens, List.cons_append, List.cons_append,
                List.append_assoc, List.cons_append, readFields]
              simp [first fuel _ (by omega), behind]

/-- Reading undoes writing, token by token. -/
theorem Plain.readBack {value : Value} (plain : value.Plain) : ReadBack value := by
  induction plain with
  | null => rintro (_ | fuel) rest enough; cases enough; rfl
  | bool b => rintro (_ | fuel) rest enough; cases enough; rfl
  | natural n => rintro (_ | fuel) rest enough; cases enough; rfl
  | string s => rintro (_ | fuel) rest enough; cases enough; rfl
  -- an opening bracket tells an empty array by what comes next
  | @array items _ ih =>
      rintro (_ | fuel) rest enough
      · cases enough
      cases items with
      | nil => rfl
      | cons item others =>
          have inside : 2 * (itemTokens (item :: others)).length < fuel := by
            rw [Value.tokens, List.length_cons, List.length_append] at enough
            omega
          have items := readItems_tokens ih (List.cons_ne_nil _ _) inside rest
          obtain ⟨first, more, opening, notClosing⟩ := exists_itemTokens_eq_cons item others
          rw [Value.tokens, List.cons_append, List.append_assoc, List.singleton_append]
          rw [opening, List.cons_append] at items ⊢
          rw [read, items]
          · rfl
          · intro behind closing
            cases closing
            exact notClosing rfl
  -- so does an opening brace
  | @record fields _ ih =>
      rintro (_ | fuel) rest enough
      · cases enough
      cases fields with
      | nil => rfl
      | cons field others =>
          have inside : 2 * (fieldTokens (plainFields (field :: others))).length < fuel := by
            rw [tokens_record, List.length_cons, List.length_append] at enough
            omega
          have fields := readFields_tokens ih (List.cons_ne_nil _ _) inside rest
          rw [tokens_record, List.cons_append, List.append_assoc, List.singleton_append]
          obtain ⟨more, opening⟩ := exists_fieldTokens_eq_cons field others
          rw [opening, List.cons_append] at fields ⊢
          rw [read, fields]
          · rfl
          · exact nofun

/-- The compact text of a plain value is read as that value. -/
theorem Plain.ofText?_text {value : Value} (plain : value.Plain) :
    ofText? value.text = some value := by
  have whole := plain.readBack (2 * value.tokens.length + 1) [] (Nat.le_succ _)
  rw [List.append_nil] at whole
  rw [ofText?, text, Token.ofText?_spell plain.tokens plain.apart, Option.bind_eq_bind,
    Option.bind_some, ofTokens?, whole]
  rfl

end LedgerCore.Json.Value
