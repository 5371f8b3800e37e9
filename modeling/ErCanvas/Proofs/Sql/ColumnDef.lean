import ErCanvas.Proofs.Sql.Sentence

/-! # Column definitions

A column definition as it is written: a name, a type, and behind them, each if it is given, that the
column is a primary key, that it is not null, and which column it references. Where no word is taken
for a part that it is not, the clause defines the column that is written (`column?_text`).

* `ColumnDef`: a definition with the words that it is written with.
* `ColumnDef.text`, `ColumnDef.column`: how it is written, and what it says. -/

namespace ErCanvas.Sql

open Text (isPlain)

/-- What must not stand in the name or type of a column. -/
def reserved : List (List Char) :=
  [primary, foreign, "constraint".toList, "unique".toList, "exclude".toList, "fulltext".toList,
    references]

theorem isKeyword_of_mem_reserved {k : List Char} (h : k ∈ reserved) : IsKeyword k := by
  have hall : ∀ k ∈ reserved, k ≠ [] ∧ k.all Char.isLower := by decide
  exact ⟨(hall k h).1, List.all_eq_true.1 (hall k h).2⟩

/-- Nothing that is reserved stands in the word. -/
def Word.Free (w : Word) : Prop := ∀ k ∈ reserved, ¬ k <:+: w.lower

instance (w : Word) : Decidable w.Free :=
  inferInstanceAs (Decidable (∀ k ∈ reserved, ¬ k <:+: w.lower))

/-! ### Options of a definition -/

/-- Two keywords, if they are written. -/
def phraseParts {a b : List Char} : Option (Spelling a × Spelling b) → List (List Char)
  | none => []
  | some (s, t) => [s.text, t.text]

/-- A reference, if one is written. -/
def referenceParts : Option (Spelling references × Word × Word) → List (List Char)
  | none => []
  | some (r, table, column) => [r.text, table.text ++ '(' :: (column.text ++ [')'])]

section

variable {a b : List Char}

theorem isPart_of_mem_phraseParts {o : Option (Spelling a × Spelling b)} {t : List Char}
    (h : t ∈ phraseParts o) : IsPart t := by
  cases o with
  | none => cases h
  | some p =>
    simp only [phraseParts, List.mem_cons, List.not_mem_nil, or_false] at h
    rcases h with rfl | rfl
    · exact .word _
    · exact .word _

theorem isPart_of_mem_referenceParts {o : Option (Spelling references × Word × Word)}
    {t : List Char} (h : t ∈ referenceParts o) : IsPart t := by
  cases o with
  | none => cases h
  | some p =>
    obtain ⟨r, table, column⟩ := p
    simp only [referenceParts, List.mem_cons, List.not_mem_nil, or_false] at h
    rcases h with rfl | rfl
    · exact .word _
    · exact .call _ fun d hd => .inr (column.plain d hd)

theorem not_infix_phraseParts {k : List Char} (ha : ¬ k <:+: a) (hb : ¬ k <:+: b)
    {o : Option (Spelling a × Spelling b)} :
    ∀ t ∈ phraseParts o, ¬ k <:+: t.map Char.toLower := by
  cases o with
  | none => simp [phraseParts]
  | some p => simp [phraseParts, Spelling.map_toLower, ha, hb]

end

/-- The definition of a column. -/
structure ColumnDef where
  name : Word
  type : Word
  arguments : Option (List Char)
  primaryKey : Option (Spelling primary × Spelling key)
  notNull : Option (Spelling "not".toList × Spelling "null".toList)
  reference : Option (Spelling references × Word × Word)
  name_free : name.Free
  name_not_index : name.lower ∉ [key, index]
  type_free : type.Free
  type_not_null : ¬ "null".toList <+: type.lower
  arguments_digits : ∀ as ∈ arguments, ∀ c ∈ as, c.isDigit ∨ c = ','

namespace ColumnDef

variable (c : ColumnDef)

/-! ### How a definition is written -/

def typeText : List Char :=
  match c.arguments with
  | none => c.type.text
  | some as => c.type.text ++ '(' :: (as ++ [')'])

/-- What may stand behind the type. -/
def options : List (List Char) :=
  phraseParts c.primaryKey ++ (phraseParts c.notNull ++ referenceParts c.reference)

def parts : List (List Char) := c.name.text :: c.typeText :: c.options

def text : List Char := sentence c.parts

/-! ### What a definition says -/

/-- The type, in lower case if it is a known one. -/
def typeName : String :=
  if knownTypes.contains (String.ofList c.type.lower) then String.ofList (c.typeText.map Char.toLower)
  else String.ofList c.typeText

def target : Option (Reference String) :=
  c.reference.map fun (_, table, column) => ⟨String.ofList table.text, String.ofList column.text⟩

def column : Column String where
  name := String.ofList c.name.text
  type := c.typeName
  isPrimaryKey := c.primaryKey.isSome
  isForeignKey := c.reference.isSome
  isNullable := c.primaryKey.isNone && c.notNull.isNone
  references := c.target

/-- The relationship of a column with a reference. -/
def relationship? (table : String) (c : ColumnDef) : Option (Relationship String) :=
  c.target.map fun r => ⟨table, String.ofList c.name.text, r.table, r.column⟩

/-! ### The parts -/

theorem arguments_plain {as : List Char} (h : as ∈ c.arguments) :
    ∀ d ∈ as, d = ',' ∨ isPlain d = true := by
  intro d hd
  rcases c.arguments_digits as h d hd with hd | rfl
  · right
    simp only [isPlain, Char.isAlphanum, hd, Bool.or_true, Bool.true_or]
  · exact .inl rfl

theorem isPart_typeText : IsPart c.typeText := by
  unfold typeText
  split
  · exact .word c.type
  · rename_i as ha
    exact .call c.type (c.arguments_plain ha)

theorem isPart_of_mem_options {t : List Char} (h : t ∈ c.options) : IsPart t := by
  simp only [options, List.mem_append] at h
  rcases h with h | h | h
  · exact isPart_of_mem_phraseParts h
  · exact isPart_of_mem_phraseParts h
  · exact isPart_of_mem_referenceParts h

theorem isPart_of_mem_parts {t : List Char} (h : t ∈ c.parts) : IsPart t := by
  simp only [parts, List.mem_cons] at h
  rcases h with rfl | rfl | h
  · exact .word c.name
  · exact c.isPart_typeText
  · exact c.isPart_of_mem_options h

theorem fragment_text : Fragment c.text :=
  .sentence (by simp [parts]) fun _ h => (c.isPart_of_mem_parts h).fragment

theorem exists_typeText_eq : ∃ r, c.typeText = c.type.text ++ r := by
  unfold typeText
  split
  · exact ⟨[], (List.append_nil _).symm⟩
  · exact ⟨_, rfl⟩

/-- Behind the type the text ends, or a word follows. -/
theorem exists_text_eq : ∃ rest, Ends rest ∧ mark? '(' rest = none ∧
    c.text = c.name.text ++ ' ' :: (c.typeText ++ rest) := by
  rw [text, parts, sentence_cons_cons]
  cases ho : c.options with
  | nil => exact ⟨[], ends_nil, rfl, by rw [sentence_singleton, List.append_nil]⟩
  | cons t ts =>
    obtain ⟨w, r, rfl⟩ := (c.isPart_of_mem_options (t := t) (by rw [ho]; exact .head _)).exists_word
    obtain ⟨r', hr'⟩ := exists_sentence_cons (w.text ++ r) ts
    refine ⟨' ' :: sentence ((w.text ++ r) :: ts), ends_cons (by simp) _, ?_, ?_⟩
    · rw [hr', List.append_assoc]
      exact w.mark?_space_append (by decide)
    · rw [sentence_cons_cons]

/-! ### The kind of a definition -/

theorem keyword?_text {k : List Char} (hk : IsKeyword k) (h : ¬ k <:+: c.name.lower) :
    keyword? k c.text = none := by
  obtain ⟨rest, -, -, hr⟩ := c.exists_text_eq
  rw [hr]
  exact keyword?_space_append hk c.name.ascii (fun hp => h hp.isInfix) _

/-- A keyword that is read from the name leaves the rest of it. -/
theorem exists_of_keyword?_text {k r : List Char} (hk : IsKeyword k)
    (h : keyword? k c.text = some r) : ∃ x rest, (∀ d ∈ x, isPlain d) ∧ (x = [] → c.name.lower = k) ∧
      r = x ++ ' ' :: (c.type.text ++ rest) := by
  obtain ⟨rest, -, -, hr⟩ := c.exists_text_eq
  obtain ⟨args, ha⟩ := c.exists_typeText_eq
  rw [hr, ha, List.append_assoc, keyword?_append_cons hk.sameLetter_space] at h
  obtain ⟨x, hx, rfl⟩ := Option.map_eq_some_iff.1 h
  obtain ⟨p, hp, hpk⟩ := (keyword?_eq_some c.name.ascii).1 hx
  refine ⟨x, args ++ rest, fun d hd => c.name.plain d ?_, ?_, rfl⟩
  · rw [hp]; exact List.mem_append_right p hd
  · rintro rfl
    rw [List.append_nil] at hp
    rw [Word.lower, hp, hpk]

/-- A parenthesis stands neither behind a part of the name nor behind all of it. -/
theorem mark?_rest {x : List Char} (hx : ∀ d ∈ x, isPlain d) (w : Word) (rest : List Char) :
    mark? '(' (x ++ ' ' :: (w.text ++ rest)) = none := by
  by_cases hne : x = []
  · rw [hne, List.nil_append]
    exact w.mark?_space_append (by decide)
  · exact Word.mark?_append ⟨x, hne, hx⟩ (by decide)

/-- The name is neither `key` nor `index`, so some of it is left behind them. -/
theorem exists_of_keyOrIndex?_text {r : List Char} (h : keyOrIndex? c.text = some r) :
    ∃ x rest, (∀ d ∈ x, isPlain d) ∧ x ≠ [] ∧ r = x ++ ' ' :: (c.type.text ++ rest) := by
  have hname := c.name_not_index
  simp only [List.mem_cons, List.not_mem_nil, or_false, not_or] at hname
  unfold keyOrIndex? at h
  split at h
  · rename_i hk
    cases h
    obtain ⟨x, rest, hx, hxk, rfl⟩ := c.exists_of_keyword?_text (by simp [IsKeyword, key]) hk
    exact ⟨x, rest, hx, fun h => hname.1 (hxk h), rfl⟩
  · obtain ⟨x, rest, hx, hxk, rfl⟩ := c.exists_of_keyword?_text (by simp [IsKeyword, index]) h
    exact ⟨x, rest, hx, fun h => hname.2 (hxk h), rfl⟩

theorem isIndex_text : isIndex c.text = false := by
  unfold isIndex
  cases h : keyOrIndex? c.text with
  | none => rfl
  | some r =>
    obtain ⟨x, rest, hx, hne, rfl⟩ := c.exists_of_keyOrIndex?_text h
    simp only [mark?_rest hx, Word.blanks?_append ⟨x, hne, hx⟩]
    rfl

theorem classify_text : classify c.text = .column := by
  have hfree : ∀ k ∈ reserved, keyword? k c.text = none := fun k hk =>
    c.keyword?_text (isKeyword_of_mem_reserved hk) (c.name_free k hk)
  have hprimary := hfree primary (by simp [reserved])
  have hforeign := hfree foreign (by simp [reserved])
  have hconstraint := hfree "constraint".toList (by simp [reserved])
  have hunique := hfree "unique".toList (by simp [reserved])
  have hexclude := hfree "exclude".toList (by simp [reserved])
  have hfulltext := hfree "fulltext".toList (by simp [reserved])
  have hcheck : ((keyword? "check".toList c.text).bind (mark? '(')) = none := by
    cases h : keyword? "check".toList c.text with
    | none => rfl
    | some r =>
      obtain ⟨x, rest, hx, -, rfl⟩ := c.exists_of_keyword?_text (by simp [IsKeyword]) h
      exact mark?_rest hx c.type rest
  have hother : isOtherConstraint c.text = false := by
    rw [isOtherConstraint, isUnique, hunique, hcheck, startsWith_eq_false hexclude,
      startsWith_eq_false hfulltext, c.isIndex_text]
    rfl
  rw [classify, startsWith_eq_false hprimary, startsWith_eq_false hforeign,
    startsWith_eq_false hconstraint, hother]
  rfl

/-! ### The parts of a definition, read -/

theorem type?_text (rest : List Char) (hr : Ends rest) (hm : mark? '(' rest = none) :
    type? (c.typeText ++ rest) = some c.typeText := by
  unfold typeText
  split
  · rw [type?, c.type.word?_append hr]
    simp only [hm]
  · rename_i as ha
    have hclose : ')' ∉ as := fun h => by
      rcases c.arguments_plain ha _ h with h | h
      · cases h
      · cases h
    have hopen : Ends ('(' :: (as ++ ')' :: rest)) := ends_cons (by simp) _
    have htext : (c.type.text ++ '(' :: (as ++ [')'])) ++ rest =
        c.type.text ++ '(' :: (as ++ ')' :: rest) := by simp
    have hmark : mark? '(' ('(' :: (as ++ ')' :: rest)) = some (as ++ ')' :: rest) := rfl
    rw [htext, type?, c.type.word?_append hopen]
    simp only [hmark]
    rw [if_pos (by simp), takeWhile_ne_append_cons hclose]
    simp [Text.isBlank]

/-! ### What stands in a definition -/

theorem not_infix_typeText {k : List Char} (hk : k ∈ reserved) :
    ¬ k <:+: c.typeText.map Char.toLower := by
  have hkw := isKeyword_of_mem_reserved hk
  unfold typeText
  split
  · exact c.type_free k hk
  · rename_i as ha
    rw [List.map_append, List.map_cons]
    intro h
    have hopen : '(' ∉ k := fun hm => by have := hkw.2 _ hm; cases this
    rcases infix_append_cons hopen h with h | h
    · exact c.type_free k hk h
    · -- there is no letter in the parentheses
      obtain ⟨a, k, rfl⟩ := List.exists_cons_of_ne_nil hkw.1
      have hm : a ∈ (as ++ [')']).map Char.toLower := h.subset (.head _)
      obtain ⟨d, hd, rfl⟩ := List.mem_map.1 hm
      have hlow := hkw.2 _ (.head _)
      have hd : d.toNat < 128 ∧ d.isAlpha = false := by
        rcases List.mem_append.1 hd with hd | hd
        · rcases c.arguments_digits as ha d hd with hd | rfl
          · exact Text.isAlpha_of_isDigit hd
          · decide
        · cases List.mem_singleton.1 hd
          decide
      rw [Text.isLower_toLower hd.1 hd.2] at hlow
      cases hlow

/-- Nothing reserved stands in the name and the type. -/
theorem not_infix_front {k : List Char} (hk : k ∈ reserved) :
    ∀ t ∈ [c.name.text, c.typeText], ¬ k <:+: t.map Char.toLower := by
  simp only [List.forall_mem_cons, List.not_mem_nil, IsEmpty.forall_iff, implies_true, and_true]
  exact ⟨c.name_free k hk, c.not_infix_typeText hk⟩

theorem typeText_not_null : ¬ "null".toList <+: c.typeText.map Char.toLower := by
  unfold typeText
  split
  · exact c.type_not_null
  · rw [List.map_append, List.map_cons]
    exact fun h => c.type_not_null ((prefix_append_cons_iff (by decide)).1 h)

/-! ### Phrases of a definition -/

/-- A phrase of two words stands where two neighbouring parts end and begin with them. -/
theorem contains_text {p a b : List Char} (hp : (p.map Char.toLower).map Char.toUpper = p)
    (hab : p.map Char.toLower = a ++ ' ' :: b) (ha : ' ' ∉ a) (hb : ' ' ∉ b) :
    contains p (Text.upper c.text) = false ↔
      c.parts.IsChain fun x y => ¬ (a <:+ x.map Char.toLower ∧ b <+: y.map Char.toLower) :=
  contains_sentence hp hab ha hb (List.cons_ne_nil _ _) fun _ ht => c.isPart_of_mem_parts ht

/-- Without a part that ends with `a` no phrase begins with it. -/
theorem isChain_of_not_suffix {a : List Char} (b : List Char) {ts : List (List Char)}
    (h : ∀ t ∈ ts, ¬ a <:+ t.map Char.toLower) :
    ts.IsChain fun x y => ¬ (a <:+ x.map Char.toLower ∧ b <+: y.map Char.toLower) := by
  have hp : ts.Pairwise fun x y => ¬ (a <:+ x.map Char.toLower ∧ b <+: y.map Char.toLower) :=
    List.pairwise_of_forall_mem_list fun x hx _ _ hxy => h x hx hxy.1
  exact hp.isChain

/-- No part of a reference ends with a keyword other than its own. -/
theorem not_suffix_referenceParts {k : List Char} (hk : IsKeyword k) (hr : ¬ k <:+ references)
    {o : Option (Spelling references × Word × Word)} :
    ∀ t ∈ referenceParts o, ¬ k <:+ t.map Char.toLower := by
  intro t ht h
  cases o with
  | none => cases ht
  | some p =>
    obtain ⟨r, table, column⟩ := p
    simp only [referenceParts, List.mem_cons, List.not_mem_nil, or_false] at ht
    rcases ht with rfl | rfl
    · rw [r.map_toLower] at h
      exact hr h
    · have he : (table.text ++ '(' :: (column.text ++ [')'])).map Char.toLower =
          (table.lower ++ '(' :: column.lower) ++ [')'] := by simp [Word.lower]
      rw [he, List.suffix_concat_iff] at h
      rcases h with h | ⟨u, rfl, -⟩
      · exact hk.1 h
      · have := hk.2 ')' (by simp)
        cases this

theorem contains_primaryKey :
    contains "PRIMARY KEY".toList (Text.upper c.text) = c.primaryKey.isSome := by
  have hc := c.contains_text (p := "PRIMARY KEY".toList) (a := primary) (b := key) (by decide)
    (by decide) (by decide) (by decide)
  cases hk : c.primaryKey with
  | none =>
    refine hc.2 (isChain_of_not_suffix key fun t ht h => ?_)
    have hfront := c.not_infix_front (k := primary) (by simp [reserved])
    have hnull := not_infix_phraseParts (k := primary) (by decide) (by decide) (o := c.notNull)
    have hreference := not_suffix_referenceParts (k := primary)
      (isKeyword_of_mem_reserved (by simp [reserved])) (by decide) (o := c.reference)
    simp only [parts, options, hk, phraseParts, List.nil_append, List.mem_cons,
      List.mem_append] at ht
    rcases ht with rfl | rfl | ht | ht
    · exact hfront _ (by simp) h.isInfix
    · exact hfront _ (by simp) h.isInfix
    · exact hnull t ht h.isInfix
    · exact hreference t ht h
  | some o =>
    rw [Option.isSome_some, ← Bool.not_eq_false]
    intro h
    have h := hc.1 h
    simp only [parts, options, hk, phraseParts, List.cons_append, List.isChain_cons_cons] at h
    exact h.2.2.1 ⟨by rw [Spelling.map_toLower], by rw [Spelling.map_toLower]⟩

theorem contains_notNull :
    contains "NOT NULL".toList (Text.upper c.text) = c.notNull.isSome := by
  have hc := c.contains_text (p := "NOT NULL".toList) (a := "not".toList) (b := "null".toList)
    (by decide) (by decide) (by decide) (by decide)
  cases hn : c.notNull with
  | none =>
    have hhead : ∀ t ∈ c.options.head?, ¬ "null".toList <+: t.map Char.toLower := by
      rw [options, hn]
      cases c.primaryKey with
      | some o =>
        rintro t ⟨⟩
        rw [Spelling.map_toLower]; decide
      | none =>
        cases c.reference with
        | none => rintro t ⟨⟩
        | some o =>
          rintro t ⟨⟩
          rw [Spelling.map_toLower]; decide
    have hoptions : ∀ t ∈ c.options, ¬ "not".toList <:+ t.map Char.toLower := by
      have hkey := not_infix_phraseParts (k := "not".toList) (by decide) (by decide)
        (o := c.primaryKey)
      have hreference := not_suffix_referenceParts (k := "not".toList) (by simp [IsKeyword])
        (by decide) (o := c.reference)
      intro t ht h
      simp only [options, hn, phraseParts, List.nil_append, List.mem_append] at ht
      rcases ht with ht | ht
      · exact hkey t ht h.isInfix
      · exact hreference t ht h
    -- only the name and the type may end with the first word, and no word begins with the second there
    refine hc.2 (List.isChain_cons_cons.2 ⟨fun h => c.typeText_not_null h.2, ?_⟩)
    refine List.isChain_cons.2 ⟨fun t ht h => hhead t ht h.2, ?_⟩
    exact isChain_of_not_suffix _ hoptions
  | some o =>
    rw [Option.isSome_some, ← Bool.not_eq_false]
    intro h
    have h := hc.1 h
    have hparts : c.parts = (c.name.text :: c.typeText :: phraseParts c.primaryKey) ++
        (o.1.text :: o.2.text :: referenceParts c.reference) := by
      simp [parts, options, hn, phraseParts]
    rw [hparts] at h
    have hnm := (List.isChain_cons_cons.1 (List.isChain_append.1 h).2.1).1
    exact hnm ⟨by rw [Spelling.map_toLower], by rw [Spelling.map_toLower]⟩

/-! ### The reference of a definition -/

theorem reference?_append (r : Spelling references) (table column : Word) :
    reference? (r.text ++ ' ' :: (table.text ++ '(' :: (column.text ++ [')']))) =
      some ⟨String.ofList table.text, String.ofList column.text⟩ := by
  have hname : qualifiedName? (table.text ++ '(' :: (column.text ++ [')'])) =
      some (table.text, '(' :: (column.text ++ [')'])) :=
    table.qualifiedName?_append (ends_cons (by simp) _) rfl
  have hcolumn : referencedColumn? ('(' :: (column.text ++ [')'])) = some column.text := by
    have hmark : mark? '(' ('(' :: (column.text ++ [')'])) = some (column.text ++ [')']) := rfl
    have hn : name? (column.text ++ [')']) = some (column.text, [')']) :=
      column.name?_append (ends_cons (by simp) _)
    rw [referencedColumn?, hmark, Option.bind_some, column.skipBlanks_append, hn]
    rfl
  rw [reference?, r.keyword?_append, Option.bind_some, table.blanks?_space_append, Option.bind_some,
    hname]
  simp only [hcolumn]
  rfl

theorem search?_reference : search? reference? c.text = c.target := by
  have hk : IsKeyword references := isKeyword_of_mem_reserved (by simp [reserved])
  have hf : ∀ cs, keyword? references cs = none → reference? cs = none := by
    intro cs h
    rw [reference?, h]; rfl
  have hparts : c.parts = [c.name.text, c.typeText] ++
      (phraseParts c.primaryKey ++ phraseParts c.notNull) ++ referenceParts c.reference := by
    simp [parts, options]
  have hfront : ∀ t ∈ [c.name.text, c.typeText] ++
      (phraseParts c.primaryKey ++ phraseParts c.notNull),
      (∀ d ∈ t, d.toNat < 128) ∧ ¬ references <:+: t.map Char.toLower := by
    intro t ht
    rcases List.mem_append.1 ht with h | h
    · refine ⟨(c.isPart_of_mem_parts ?_).fragment.ascii, c.not_infix_front (by simp [reserved]) t h⟩
      rw [hparts, List.append_assoc]
      exact List.mem_append_left _ h
    · rcases List.mem_append.1 h with h | h
      · exact ⟨(isPart_of_mem_phraseParts h).fragment.ascii,
          not_infix_phraseParts (by decide) (by decide) t h⟩
      · exact ⟨(isPart_of_mem_phraseParts h).fragment.ascii,
          not_infix_phraseParts (by decide) (by decide) t h⟩
  rw [text, hparts, target]
  cases hr : c.reference with
  | none =>
    have hnone := search?_sentence_eq_none hk hf hfront
    rw [referenceParts, List.append_nil]
    exact hnone
  | some p =>
    obtain ⟨r, table, column⟩ := p
    rw [search?_sentence hk hf hfront (by simp [referenceParts]), referenceParts, sentence_cons_cons,
      sentence_singleton]
    exact search?_of_some (reference?_append r table column)

/-! ### The column of a definition -/

theorem normalizeType_typeText : normalizeType (String.ofList c.typeText) = c.typeName := by
  have htake : c.typeText.takeWhile (· != '(') = c.type.text := by
    have hopen : '(' ∉ c.type.text := c.type.not_mem (by decide)
    unfold typeText
    split
    · exact takeWhile_ne hopen
    · exact takeWhile_ne_append_cons hopen _
  have htidy := (Fragment.word c.type).tidy
  have hbase : typeBase (String.ofList c.typeText) = String.ofList c.type.lower := by
    rw [typeBase, String.toList_ofList, htake, Text.trim_eq_self htidy.head htidy.last,
      Text.lower_of_ascii c.type.ascii]
    rfl
  rw [normalizeType, hbase, Text.lower_of_ascii c.isPart_typeText.fragment.ascii]
  rfl

/-- **The column of a definition** is the one that is written. -/
theorem column?_text : column? c.text = some c.column := by
  obtain ⟨rest, hends, hmark, htext⟩ := c.exists_text_eq
  obtain ⟨args, hargs⟩ := c.exists_typeText_eq
  have hname : name? c.text = some (c.name.text, ' ' :: (c.typeText ++ rest)) := by
    rw [htext, c.name.name?_append (ends_cons (by simp) _)]
  have hblanks : blanks? (' ' :: (c.typeText ++ rest)) = some (c.typeText ++ rest) := by
    rw [hargs, List.append_assoc, c.type.blanks?_space_append]
  rw [column?, hname]
  simp only [hblanks, Option.bind_some, c.type?_text rest hends hmark, c.contains_primaryKey,
    c.contains_notNull, c.search?_reference, c.normalizeType_typeText]
  rw [column, Column.make, target]
  cases c.primaryKey <;> cases c.notNull <;> cases c.reference <;> rfl

theorem apply_text (d : Draft) : d.apply c.text =
    ⟨⟨d.table.name, d.table.columns ++ [c.column]⟩,
      d.relationships ++ (c.relationship? d.table.name).toList, d.notes⟩ := by
  rw [Draft.apply, c.classify_text]
  simp only [Draft.applyColumn, c.column?_text]
  rfl

end ColumnDef

end ErCanvas.Sql
