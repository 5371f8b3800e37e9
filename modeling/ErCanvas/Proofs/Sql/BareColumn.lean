import ErCanvas.Proofs.Sql.Sentence

/-! # Bare columns

A clause of two words, a name and a type, writes no keyword. Keywords are looked for in the text of the
clause, though, and a phrase of two words is found where it lies across the space between name and type.

* `bare_column`: what the column of such a clause is. -/

namespace ErCanvas.Sql

open Text (isPlain)

/-- The clause of a name and a type. -/
def bareColumn (n t : Word) : List Char := sentence [n.text, t.text]

theorem bareColumn_eq (n t : Word) : bareColumn n t = n.text ++ ' ' :: t.text := by
  rw [bareColumn, sentence_cons_cons, sentence_singleton]

/-! ### Phrases across the space -/

/-- The name ends with one word of a phrase and the type begins with the other. -/
def Across (a b : List Char) (n t : Word) : Prop := a <:+ n.lower ∧ b <+: t.lower

instance (a b : List Char) (n t : Word) : Decidable (Across a b n t) :=
  inferInstanceAs (Decidable (_ ∧ _))

theorem contains_bareColumn {p a b : List Char} (hp : (p.map Char.toLower).map Char.toUpper = p)
    (hab : p.map Char.toLower = a ++ ' ' :: b) (ha : ' ' ∉ a) (hb : ' ' ∉ b) (n t : Word) :
    contains p (Text.upper (bareColumn n t)) = decide (Across a b n t) := by
  have hparts : ∀ u ∈ [n.text, t.text], IsPart u := by
    simp only [List.forall_mem_cons, List.not_mem_nil, IsEmpty.forall_iff, implies_true, and_true]
    exact ⟨.word n, .word t⟩
  have hchain := contains_sentence hp hab ha hb (List.cons_ne_nil _ _) hparts
  rw [List.isChain_pair] at hchain
  by_cases h : Across a b n t
  · rw [decide_eq_true h, ← Bool.not_eq_false]
    exact fun hc => hchain.1 hc h
  · rw [decide_eq_false h]
    exact hchain.2 h

/-! ### References -/

section

variable {x : List Char}

/-- A keyword that is read from a word leaves all behind it, or a text that begins with no blank. -/
theorem keyword?_plain {k r : List Char} (hx : ∀ c ∈ x, isPlain c) (h : keyword? k x = some r) :
    (x.map Char.toLower = k ∧ r = []) ∨ ∀ rest, blanks? (r ++ rest) = none := by
  obtain ⟨p, rfl, hp⟩ := (keyword?_eq_some fun c hc => Text.toNat_lt_of_isPlain (hx c hc)).1 h
  by_cases hr : r = []
  · exact .inl ⟨by rw [hr, List.append_nil, hp], hr⟩
  · exact .inr fun rest => Word.blanks?_append ⟨r, hr, fun c hc => hx c (List.mem_append_right p hc)⟩

theorem reference?_plain (hx : ∀ c ∈ x, isPlain c) : reference? x = none := by
  rw [reference?]
  cases hk : keyword? references x with
  | none => rfl
  | some r =>
    rcases keyword?_plain hx hk with ⟨-, rfl⟩ | hr
    · rfl
    · have hnone := hr []
      rw [List.append_nil] at hnone
      rw [Option.bind_some, hnone]
      rfl

theorem reference?_space_append (hx : ∀ c ∈ x, isPlain c) (h : x.map Char.toLower ≠ references)
    (rest : List Char) : reference? (x ++ ' ' :: rest) = none := by
  have hk : IsKeyword references := by decide
  rw [reference?, keyword?_append_cons hk.sameLetter_space]
  cases hr : keyword? references x with
  | none => rfl
  | some r =>
    rcases keyword?_plain hx hr with ⟨he, -⟩ | hnone
    · exact absurd he h
    · rw [Option.map_some, Option.bind_some, hnone]
      rfl

theorem search?_reference_plain (hx : ∀ c ∈ x, isPlain c) : search? reference? x = none := by
  induction x with
  | nil => rfl
  | cons c x ih =>
    rw [search?_cons_of_none (reference?_plain hx), ih fun d hd => hx d (.tail c hd)]

theorem search?_reference_space (hx : ∀ c ∈ x, isPlain c) (h : ¬ references <:+ x.map Char.toLower)
    {rest : List Char} (hrest : ∀ c ∈ rest, isPlain c) :
    search? reference? (x ++ ' ' :: rest) = none := by
  -- on the text in front of the space, of which no end is the keyword
  induction x with
  | nil =>
    have hnone : reference? (' ' :: rest) = none := reference?_space_append hx (by decide) rest
    rw [List.nil_append, search?_cons_of_none hnone, search?_reference_plain hrest]
  | cons c x ih =>
    rw [List.map_cons, List.suffix_cons_iff, not_or] at h
    have hnone : reference? (c :: x ++ ' ' :: rest) = none :=
      reference?_space_append hx (fun he => h.1 he.symm) rest
    rw [List.cons_append] at hnone ⊢
    rw [search?_cons_of_none hnone, ih (fun d hd => hx d (.tail c hd)) h.2]

end

theorem search?_reference_bareColumn {n : Word} (h : ¬ references <:+ n.lower) (t : Word) :
    search? reference? (bareColumn n t) = none := by
  rw [bareColumn_eq]
  exact search?_reference_space n.plain h t.plain

/-! ### The column -/

theorem column?_bareColumn (n t : Word) : column? (bareColumn n t) =
    some (Column.make (String.ofList n.text) (normalizeType (String.ofList t.text))
      (decide (Across primary key n t)) false
      (!(decide (Across "not".toList "null".toList n t) || decide (Across primary key n t)))
      (search? reference? (bareColumn n t))) := by
  have hname : name? (bareColumn n t) = some (n.text, ' ' :: t.text) := by
    rw [bareColumn_eq, n.name?_append (ends_cons (by simp) _)]
  have hblanks : blanks? (' ' :: t.text) = some t.text := by
    rw [← List.append_nil t.text, t.blanks?_space_append]
  have htype : type? t.text = some t.text := by
    have hword := t.word?_append ends_nil
    rw [List.append_nil] at hword
    rw [type?, hword]
    rfl
  have hprimary := contains_bareColumn (p := "PRIMARY KEY".toList) (a := primary) (b := key)
    (by decide) (by decide) (by decide) (by decide) n t
  have hnull := contains_bareColumn (p := "NOT NULL".toList) (a := "not".toList) (b := "null".toList)
    (by decide) (by decide) (by decide) (by decide) n t
  rw [column?, hname]
  simp only [hblanks, Option.bind_some, htype, hprimary, hnull]

/-- **The column of a name and a type.** It is a primary key where `primary key` lies across the space, it
is nullable where neither this phrase nor `not null` does, and it has no reference and adds no relationship
unless its name ends with `references`. -/
theorem bare_column (n t : Word) (h : classify (bareColumn n t) = .column) :
    ∃ c, column? (bareColumn n t) = some c ∧ c.name = String.ofList n.text ∧
      c.type = normalizeType (String.ofList t.text) ∧
      (c.isPrimaryKey ↔ Across primary key n t) ∧
      (c.isNullable ↔ ¬ Across primary key n t ∧ ¬ Across "not".toList "null".toList n t) ∧
      (¬ references <:+ n.lower → c.references = none ∧ c.isForeignKey = false ∧
        ∀ d : Draft, d.apply (bareColumn n t) =
          ⟨⟨d.table.name, d.table.columns ++ [c]⟩, d.relationships, d.notes⟩) := by
  have hcolumn := column?_bareColumn n t
  rw [Column.make] at hcolumn
  refine ⟨_, hcolumn, ?_⟩
  dsimp only
  refine ⟨rfl, rfl, ?_, ?_, ?_⟩
  · simp
  · simp [and_comm]
  · intro hn
    rw [search?_reference_bareColumn hn t] at hcolumn ⊢
    refine ⟨rfl, rfl, fun d => ?_⟩
    rw [Draft.apply, h]
    simp only [Draft.applyColumn, hcolumn]
    simp [Column.relationship?]

/-- The column of `unit_price MONEY`. -/
theorem bare_column_price :
    classify (bareColumn (.of "unit_price" (by decide)) (.of "MONEY" (by decide))) = .column ∧
    ∃ c, column? (bareColumn (.of "unit_price" (by decide)) (.of "MONEY" (by decide))) = some c ∧
      c.name = "unit_price" ∧ ¬ c.isPrimaryKey ∧ c.isNullable ∧ c.references = none := by
  have hkind : classify (bareColumn (.of "unit_price" (by decide)) (.of "MONEY" (by decide))) =
      .column := by decide +kernel
  obtain ⟨c, hc, hname, -, hkey, hnull, hreference⟩ := bare_column _ _ hkind
  refine ⟨hkind, c, hc, hname.trans (by decide), ?_, ?_, (hreference (by decide)).1⟩
  · rw [hkey]
    decide
  · rw [hnull]
    decide

/-- The words are no keywords, but keywords are found in the clauses. -/
theorem bare_column_across :
    let myPrimary := Word.of "my_primary" (by decide)
    let keyNo := Word.of "key_no" (by decide)
    let didNot := Word.of "did_not" (by decide)
    let nullable := Word.of "nullable" (by decide)
    let oldReferences := Word.of "old_references" (by decide)
    let int := Word.of "int" (by decide)
    (∀ w ∈ [myPrimary, keyNo, didNot, nullable, oldReferences, int],
      w.lower ∉ [primary, key, "not".toList, "null".toList, references]) ∧
    classify (bareColumn myPrimary keyNo) = .column ∧
    (column? (bareColumn myPrimary keyNo)).map (·.isPrimaryKey) = some true ∧
    classify (bareColumn didNot nullable) = .column ∧
    (column? (bareColumn didNot nullable)).map (·.isNullable) = some false ∧
    classify (bareColumn oldReferences int) = .column ∧
    (column? (bareColumn oldReferences int)).map (·.references) = some (some ⟨"int", "id"⟩) := by
  decide +kernel

end ErCanvas.Sql
