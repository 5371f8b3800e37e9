import ErCanvas.Proofs.Sql.Quotation
import ErCanvas.Proofs.Sql.Sentence
import ErCanvas.Proofs.Sql.Stop

/-! # Columns with a default

A column clause that ends with a text in quotes is read up to the quote, except for its options: whether
it is a primary key, whether it may be null and what it references are looked for in the whole clause,
also in the quotes. So the text counts by the options that it names, and by nothing else
(`DefaultClause.apply_quoted`).

* `optionsIn`: the options of a column that a text names.
* `DefaultClause`: a column clause with a default, up to the default. -/

namespace ErCanvas.Sql

open Text (isBlank isWordChar)

/-! ### Readers in front of a quote -/

section

variable (cs u : List Char)

theorem startsWith_apostrophe {ks : List (List Char)} (hk : ∀ k ∈ ks, IsKeyword k) (hne : ks ≠ []) :
    startsWith ks (cs ++ '\'' :: u) = startsWith ks cs := by
  rw [startsWith, startsWith, stop_apostrophe.phrase?_fenced u hk hne cs]
  cases phrase? ks cs with
  | none => rfl
  | some rest => cases rest <;> rfl

theorem isSome_mark?_apostrophe {m : Char} (hm : m ≠ '\'') :
    (mark? m (cs ++ '\'' :: u)).isSome = (mark? m cs).isSome := by
  rw [stop_apostrophe.mark?_fenced u hm cs, Option.isSome_map]

theorem isUnique_apostrophe : isUnique (cs ++ '\'' :: u) = isUnique cs := by
  unfold isUnique
  rw [stop_apostrophe.keyword?_fenced u (by decide) cs]
  cases keyword? "unique".toList cs with
  | none => rfl
  | some rest =>
    show ((mark? '(' (rest ++ '\'' :: u)).isSome || startsWith [key] (skipBlanks (rest ++ '\'' :: u)) ||
      startsWith [index] (skipBlanks (rest ++ '\'' :: u))) = _
    rw [isSome_mark?_apostrophe _ _ (by decide), stop_apostrophe.skipBlanks_append,
      startsWith_apostrophe _ _ (by decide) (by simp),
      startsWith_apostrophe _ _ (by decide) (by simp)]

theorem isIndex_apostrophe : isIndex (cs ++ '\'' :: u) = isIndex cs := by
  have hkeyOrIndex : keyOrIndex? (cs ++ '\'' :: u) = (keyOrIndex? cs).map (· ++ '\'' :: u) := by
    have hkey : IsKeyword key := by decide
    have hindex : IsKeyword index := by decide
    rw [keyOrIndex?, keyOrIndex?, stop_apostrophe.keyword?_fenced u hkey cs,
      stop_apostrophe.keyword?_fenced u hindex cs]
    cases keyword? key cs <;> rfl
  unfold isIndex
  rw [hkeyOrIndex]
  cases keyOrIndex? cs with
  | none => rfl
  | some rest =>
    have hword : (blanks? (rest ++ '\'' :: u)).bind word? =
        ((blanks? rest).bind word?).map (Prod.map id (· ++ '\'' :: u)) :=
      (stop_apostrophe.blanks?_fenced u).bind
        (fun cs => word?_append_cons stop_apostrophe.notWord cs u) rest
    simp only [Option.map_some, isSome_mark?_apostrophe _ _ (show '(' ≠ '\'' by decide), hword]
    congr 1
    cases (blanks? rest).bind word? with
    | none => rfl
    | some p => exact congrArg (!isTypeWord p.1 && ·) (isSome_mark?_apostrophe p.2 u (by decide))

/-- The kind of a clause shows in front of the first quote. -/
theorem classify_apostrophe : classify (cs ++ '\'' :: u) = classify cs := by
  have hcheck : IsKeyword "check".toList := by decide
  have hcheck : ((keyword? "check".toList (cs ++ '\'' :: u)).bind (mark? '(')) =
      ((keyword? "check".toList cs).bind (mark? '(')).map (· ++ '\'' :: u) :=
    (stop_apostrophe.keyword?_fenced u hcheck).bind (stop_apostrophe.mark?_fenced u (by decide)) cs
  have hother : isOtherConstraint (cs ++ '\'' :: u) = isOtherConstraint cs := by
    rw [isOtherConstraint, isOtherConstraint, isUnique_apostrophe, hcheck, Option.isSome_map,
      isIndex_apostrophe,
      startsWith_apostrophe _ _ (by decide) (by simp),
      startsWith_apostrophe _ _ (by decide) (by simp)]
  rw [classify, classify, hother,
    startsWith_apostrophe _ _ (by decide) (by simp),
    startsWith_apostrophe _ _ (by decide) (by simp),
    startsWith_apostrophe _ _ (by decide) (by simp)]

theorem referencedColumn?_apostrophe : referencedColumn? (cs ++ '\'' :: u) = referencedColumn? cs := by
  have hname : Fenced ('\'' :: u) (Prod.map id (· ++ '\'' :: u)) fun cs => name? (skipBlanks cs) := by
    intro cs
    show name? (skipBlanks (cs ++ '\'' :: u)) = _
    rw [stop_apostrophe.skipBlanks_append]
    exact stop_apostrophe.name?_fenced u _
  have hinside : ((mark? '(' (cs ++ '\'' :: u)).bind fun rest => name? (skipBlanks rest)) =
      ((mark? '(' cs).bind fun rest => name? (skipBlanks rest)).map (Prod.map id (· ++ '\'' :: u)) :=
    (stop_apostrophe.mark?_fenced u (by decide)).bind hname cs
  unfold referencedColumn?
  rw [hinside]
  cases (mark? '(' cs).bind fun rest => name? (skipBlanks rest) with
  | none => rfl
  | some p =>
    show (mark? ')' (p.2 ++ '\'' :: u)).map (fun _ => p.1) = (mark? ')' p.2).map fun _ => p.1
    rw [stop_apostrophe.mark?_fenced u (by decide) p.2, Option.map_map]
    rfl

theorem reference?_apostrophe : reference? (cs ++ '\'' :: u) = reference? cs := by
  have hreferences : IsKeyword references := by decide
  have hblanks : Fenced ('\'' :: u) (· ++ '\'' :: u) fun cs => (keyword? references cs).bind blanks? :=
    (stop_apostrophe.keyword?_fenced u hreferences).bind (stop_apostrophe.blanks?_fenced u)
  have htable : ((keyword? references (cs ++ '\'' :: u)).bind blanks?).bind qualifiedName? =
      (((keyword? references cs).bind blanks?).bind qualifiedName?).map
        (Prod.map id (· ++ '\'' :: u)) :=
    hblanks.bind (stop_apostrophe.qualifiedName?_fenced u (by decide)) cs
  unfold reference?
  rw [htable]
  cases ((keyword? references cs).bind blanks?).bind qualifiedName? with
  | none => rfl
  | some p =>
    have hcolumn := referencedColumn?_apostrophe p.2 u
    simp only [Option.map_some, Prod.map, id_eq, hcolumn]

end

/-! ### Options -/

/-- The options of a column. -/
structure Options where
  primaryKey : Bool
  notNull : Bool
  reference : Option (Reference String)
deriving DecidableEq, Repr

/-- The options that a text names. -/
def optionsIn (cs : List Char) : Options where
  primaryKey := contains "PRIMARY KEY".toList (Text.upper cs)
  notNull := contains "NOT NULL".toList (Text.upper cs)
  reference := search? reference? cs

/-- What either names, the first reference if there are two. -/
def Options.or (o o' : Options) : Options :=
  ⟨o.primaryKey || o'.primaryKey, o.notNull || o'.notNull, o.reference.or o'.reference⟩

section

variable {a b p : List Char}

theorem contains_append_cons {c : Char} (hc : c ∉ p) :
    contains p (a ++ c :: b) = (contains p a || contains p b) := by
  rw [Bool.eq_iff_iff, Bool.or_eq_true, contains_eq_true, contains_eq_true, contains_eq_true]
  constructor
  · exact infix_append_cons hc
  · rintro (h | h)
    · exact h.trans (List.prefix_append a _).isInfix
    · exact h.trans ((List.suffix_cons c b).trans (List.suffix_append a _)).isInfix

theorem contains_upper_apostrophe (hp : '\'' ∉ p) (a b : List Char) :
    contains p (Text.upper (a ++ '\'' :: b)) = (contains p (Text.upper a) || contains p (Text.upper b)) := by
  have hupper : Text.upper (a ++ '\'' :: b) = Text.upper a ++ '\'' :: Text.upper b := by
    simp only [Text.upper, List.flatMap_append, List.flatMap_cons]
    rfl
  rw [hupper, contains_append_cons hp]

/-- A reader that does not go on over a quote finds the first of what stands before and behind it. -/
theorem search?_apostrophe {α : Type} {f : List Char → Option α}
    (hf : ∀ cs, f (cs ++ '\'' :: b) = f cs) (a : List Char) :
    search? f (a ++ '\'' :: b) = (search? f a).or (search? f b) := by
  induction a with
  | nil =>
    rw [List.nil_append, search?, search?]
    have := hf []
    rw [List.nil_append] at this
    rw [this]
    cases f [] <;> rfl
  | cons c a ih =>
    have := hf (c :: a)
    rw [List.cons_append] at this ⊢
    rw [search?, search?, this, ih]
    cases f (c :: a) <;> rfl

/-- **The options of a text** are named before a quote or behind it. -/
theorem optionsIn_apostrophe (a b : List Char) :
    optionsIn (a ++ '\'' :: b) = (optionsIn a).or (optionsIn b) := by
  rw [optionsIn, contains_upper_apostrophe (by decide), contains_upper_apostrophe (by decide),
    search?_apostrophe fun cs => reference?_apostrophe cs b]
  rfl

theorem optionsIn_quoted (a l : List Char) :
    optionsIn (a ++ quoted l) = (optionsIn a).or ((optionsIn l).or (optionsIn [])) := by
  rw [quoted, optionsIn_apostrophe, optionsIn_apostrophe]

end

/-- The column of a clause: its name, its type, and the options that are named in it. -/
theorem column?_eq (cs : List Char) : column? cs = (name? cs).bind fun p =>
    ((blanks? p.2).bind type?).map fun type =>
      let o := optionsIn cs
      Column.make (String.ofList p.1) (normalizeType (String.ofList type)) o.primaryKey false
        (!(o.notNull || o.primaryKey)) o.reference := by
  rw [column?]
  cases name? cs with
  | none => rfl
  | some p =>
    obtain ⟨w, rest⟩ := p
    dsimp only [Option.bind_some]
    cases (blanks? rest).bind type? <;> rfl

/-! ### Clauses with a default -/

/-- White space does not stand in words: its code points lie between the ranges of word characters. -/
theorem isBlank_of_isWordChar {c : Char} (h : isWordChar c = true) : isBlank c = false := by
  by_cases hc : c.toNat < 128
  · exact Text.isBlank_of_isPlain ((Text.isWordChar_of_ascii hc).symm.trans h)
  · have hranges : Text.alphanumericRanges.all (fun r => decide (0xA0 < r.1 ∧ (r.2 < 0x1680 ∨
        0x1680 < r.1 ∧ r.2 < 0x2000 ∨ 0x205F < r.1 ∧ r.2 < 0x3000 ∨ 0x3000 < r.1))) = true := by
      decide +kernel
    rw [isWordChar, if_neg hc, Text.CodeRange.covers, List.any_eq_true] at h
    obtain ⟨r, hr, hn⟩ := h
    have hr := of_decide_eq_true (List.all_eq_true.1 hranges r hr)
    simp only [Bool.and_eq_true, decide_eq_true_eq] at hn
    simp only [isBlank, Bool.or_eq_false_iff, Bool.and_eq_false_iff, decide_eq_false_iff_not,
      beq_eq_false_iff_ne]
    omega

section

variable {w rest : List Char} (hne : w ≠ []) (hw : ∀ c ∈ w, isWordChar c)

include hne hw

theorem type?_of_isWordChar (hr : ∀ c ∈ rest.head?, isWordChar c = false)
    (hm : mark? '(' rest = none) : type? (w ++ rest) = some w := by
  rw [type?, word?_of_isWordChar hne hw hr]
  simp only [hm]

/-- A type is read with its arguments and the white space in front of them. -/
theorem type?_arguments {gap as : List Char} (hgap : Spaces gap) (has : ')' ∉ as) (u : List Char) :
    type? (w ++ (gap ++ '(' :: (as ++ ')' :: u))) = some (w ++ (gap ++ '(' :: (as ++ [')']))) := by
  have hblank : Text.Blank gap := fun c hc => by rw [hgap c hc]; rfl
  have hend : ∀ c ∈ (gap ++ '(' :: (as ++ ')' :: u)).head?, isWordChar c = false := by
    cases gap with
    | nil => simp; decide
    | cons e gap =>
      rintro c ⟨⟩
      rw [hgap _ (.head _)]
      decide
  have hmark : mark? '(' (gap ++ '(' :: (as ++ ')' :: u)) = some (as ++ ')' :: u) := by
    rw [mark?, skipBlanks, Text.dropWhile_blank hblank]
    rfl
  have hskipped : (gap ++ '(' :: (as ++ ')' :: u)).takeWhile isBlank = gap := by
    rw [takeWhile_append_cons (by decide), List.takeWhile_eq_self_iff]
    exact hblank
  rw [type?, word?_of_isWordChar hne hw hend]
  simp only [hmark, hskipped]
  rw [if_pos (by simp), takeWhile_ne_append_cons has]
  simp

end

/-- Where no parenthesis follows, none follows with a word behind it. -/
theorem mark?_append_space {a : List Char} (h : mark? '(' a = none) (w : Word) (u : List Char) :
    mark? '(' (a ++ ' ' :: (w.text ++ u)) = none := by
  rw [mark?] at h ⊢
  rw [skipBlanks_append]
  cases hs : skipBlanks a with
  | nil => exact w.mark?_space_append (by decide)
  | cons c r =>
    rw [hs] at h
    have hc : c ≠ '(' := by
      rintro rfl
      cases h
    exact if_neg hc

/-- A column clause `name type DEFAULT '...'`, up to the quote. The name may stand between marks, and the
type may have arguments and go on behind them. -/
structure DefaultClause where
  opening : Option Char
  name : List Char
  closing : Option Char
  type : List Char
  /-- The white space in front of the arguments, and the arguments. -/
  arguments : Option (List Char × List Char)
  /-- What else stands in front of the keyword, as further words of the type. -/
  more : List Char
  default : Spelling "default".toList
  /-- The white space in front of the quote. -/
  gap : List Char
  isOpening_opening : ∀ c ∈ opening, isOpening c
  name_ne_nil : name ≠ []
  isWordChar_name : ∀ c ∈ name, isWordChar c
  isClosing_closing : ∀ c ∈ closing, isClosing c
  type_ne_nil : type ≠ []
  isWordChar_type : ∀ c ∈ type, isWordChar c
  arguments_closed : ∀ p ∈ arguments, Spaces p.1 ∧ ')' ∉ p.2
  more_apart : arguments = none → (∀ c ∈ more.head?, isWordChar c = false) ∧ mark? '(' more = none
  gap_spaces : Spaces gap

namespace DefaultClause

variable (d : DefaultClause)

def typeText : List Char :=
  match d.arguments with
  | none => d.type
  | some (gap, as) => d.type ++ (gap ++ '(' :: (as ++ [')']))

def text : List Char :=
  d.opening.toList ++ (d.name ++ (d.closing.toList ++ ' ' :: (d.typeText ++ (d.more ++ ' ' ::
    (d.default.text ++ d.gap)))))

/-- The column with the options that are named in the clause. -/
def column (o : Options) : Column String :=
  Column.make (String.ofList d.name) (normalizeType (String.ofList d.typeText)) o.primaryKey false
    (!(o.notNull || o.primaryKey)) o.reference

theorem text_append (u : List Char) : d.text ++ u = d.opening.toList ++ (d.name ++ (d.closing.toList ++
    ' ' :: (d.typeText ++ (d.more ++ ' ' :: (d.default.text ++ (d.gap ++ u)))))) := by
  simp [text]

/-! ### Reading a clause -/

theorem name?_text (u : List Char) : name? (d.text ++ u) =
    some (d.name, ' ' :: (d.typeText ++ (d.more ++ ' ' :: (d.default.text ++ (d.gap ++ u))))) := by
  rw [text_append]
  exact name?_marked d.isOpening_opening d.isClosing_closing d.name_ne_nil d.isWordChar_name
    (ends_cons (by simp) _)

theorem type?_text (u : List Char) :
    type? (d.typeText ++ (d.more ++ ' ' :: (d.default.text ++ u))) = some d.typeText := by
  unfold typeText
  cases ha : d.arguments with
  | none =>
    obtain ⟨hhead, hmark⟩ := d.more_apart ha
    have hend : ∀ c ∈ (d.more ++ ' ' :: (d.default.text ++ u)).head?, isWordChar c = false := by
      cases hmore : d.more with
      | nil => simp; decide
      | cons c r => exact fun e he => hhead e (by rw [hmore]; exact he)
    exact type?_of_isWordChar d.type_ne_nil d.isWordChar_type hend (mark?_append_space hmark _ u)
  | some p =>
    obtain ⟨gap, as⟩ := p
    obtain ⟨hgap, has⟩ := d.arguments_closed _ ha
    have h := type?_arguments d.type_ne_nil d.isWordChar_type hgap has
      (d.more ++ ' ' :: (d.default.text ++ u))
    simpa using h

theorem blanks?_text (u : List Char) : blanks? (' ' :: (d.typeText ++ u)) = some (d.typeText ++ u) := by
  obtain ⟨c, cs, hcs⟩ := List.exists_cons_of_ne_nil d.type_ne_nil
  obtain ⟨r, hr⟩ : ∃ r, d.typeText = c :: r := by
    unfold typeText
    cases d.arguments with
    | none => exact ⟨cs, hcs⟩
    | some p => exact ⟨_, by rw [hcs]; rfl⟩
  have hc : isBlank c = false := isBlank_of_isWordChar (d.isWordChar_type c (hcs ▸ .head _))
  show some (skipBlanks (d.typeText ++ u)) = _
  rw [hr, List.cons_append, skipBlanks, List.dropWhile_cons_of_neg (by simp [hc])]

/-- **The column of a clause with a default** has the options that the text in the quotes names, beside
those that are named in front of it. -/
theorem column?_quoted (l : List Char) : column? (d.text ++ quoted l) =
    some (d.column ((optionsIn d.text).or ((optionsIn l).or (optionsIn [])))) := by
  rw [column?_eq, d.name?_text, Option.bind_some, d.blanks?_text, Option.bind_some, d.type?_text,
    optionsIn_quoted]
  rfl

/-- A clause with a default says the same with another text in the quotes that names the same options. -/
theorem apply_quoted (hd : classify d.text = .column) {l l' : List Char}
    (h : optionsIn l = optionsIn l') (draft : Draft) :
    draft.apply (d.text ++ quoted l) = draft.apply (d.text ++ quoted l') := by
  have hkind : ∀ l, classify (d.text ++ quoted l) = .column := fun l =>
    (classify_apostrophe d.text _).trans hd
  rw [Draft.apply, Draft.apply, hkind, hkind]
  show draft.applyColumn _ = draft.applyColumn _
  rw [Draft.applyColumn, Draft.applyColumn, d.column?_quoted, d.column?_quoted, h]

end DefaultClause

end ErCanvas.Sql
