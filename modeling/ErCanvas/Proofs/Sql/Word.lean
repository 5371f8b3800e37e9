import ErCanvas.Proofs.Sql.Semicolon

/-! # Words and keywords

Words of ASCII letters, digits and underscores, and keywords in any mix of cases, put in front of a text
where no word goes on, are read off as they are. A keyword is read from a word only where the lower case
of the word begins with it. -/

namespace ErCanvas.Sql

open Text (isBlank isPlain isWordChar)

/-- A nonempty text of ASCII letters, digits and underscores. -/
structure Word where
  text : List Char
  ne_nil : text ≠ []
  plain : ∀ c ∈ text, isPlain c

/-- The word in lower case. -/
def Word.lower (w : Word) : List Char := w.text.map Char.toLower

/-- A keyword, which is given in lower case, with every letter in either case. -/
structure Spelling (k : List Char) extends Word where
  lower_eq : toWord.lower = k

/-- The word with a given text. -/
def Word.of (s : String) (h : s.toList ≠ [] ∧ s.toList.all isPlain) : Word :=
  ⟨s.toList, h.1, List.all_eq_true.1 h.2⟩

/-- The keyword with a given text. -/
def Spelling.of {k : List Char} (s : String) (h : s.toList ≠ [] ∧ s.toList.all isPlain)
    (hk : s.toList.map Char.toLower = k) : Spelling k := ⟨Word.of s h, hk⟩

theorem Spelling.map_toLower {k : List Char} (s : Spelling k) : s.text.map Char.toLower = k :=
  s.lower_eq

/-- No name goes on here. -/
def Ends (cs : List Char) : Prop := ∀ c ∈ cs.head?, isWordChar c = false ∧ isNameMark c = false

theorem ends_nil : Ends [] := fun _ h => by cases h

theorem ends_cons {c : Char} (h : c ∈ [' ', '(', ')', ',']) (cs : List Char) : Ends (c :: cs) := by
  rintro d hd
  cases hd
  revert h
  simp only [List.mem_cons, List.not_mem_nil, or_false]
  rintro (rfl | rfl | rfl | rfl) <;> decide

theorem isNameMark_of_isWordChar {c : Char} (h : isWordChar c = true) : isNameMark c = false := by
  rw [← Bool.not_eq_true]
  intro hm
  have hc : c = '\x60' ∨ c = '"' ∨ c = '[' ∨ c = ']' := by
    simp only [isNameMark, isOpening, isClosing, Bool.or_eq_true, beq_iff_eq] at hm
    tauto
  rcases hc with rfl | rfl | rfl | rfl <;> cases h

theorem isNameMark_of_isPlain {c : Char} (h : isPlain c = true) : isNameMark c = false :=
  isNameMark_of_isWordChar (Text.isWordChar_of_isPlain h)

/-- A word is read up to its end. -/
theorem word?_of_isWordChar {w rest : List Char} (hne : w ≠ []) (hw : ∀ c ∈ w, isWordChar c)
    (hr : ∀ c ∈ rest.head?, isWordChar c = false) : word? (w ++ rest) = some (w, rest) := by
  have htake : (w ++ rest).takeWhile isWordChar = w := by
    rw [List.takeWhile_append_of_pos hw]
    cases rest with
    | nil => simp
    | cons c rest => rw [List.takeWhile_cons_of_neg (by simp [hr c rfl]), List.append_nil]
  have hdrop : (w ++ rest).dropWhile isWordChar = rest := by
    rw [List.dropWhile_append_of_pos hw]
    cases rest with
    | nil => rfl
    | cons c rest => rw [List.dropWhile_cons_of_neg (by simp [hr c rfl])]
  have hempty : w.isEmpty = false := by simpa using hne
  simp only [word?, htake, hdrop, hempty]
  rfl

/-- A name between marks is read with the marks. -/
theorem name?_marked {o c : Option Char} (ho : ∀ m ∈ o, isOpening m) (hc : ∀ m ∈ c, isClosing m)
    {w rest : List Char} (hne : w ≠ []) (hw : ∀ c ∈ w, isWordChar c) (hr : Ends rest) :
    name? (o.toList ++ (w ++ (c.toList ++ rest))) = some (w, rest) := by
  have hopening : ∀ u, dropOne isOpening (o.toList ++ (w ++ u)) = w ++ u := by
    intro u
    cases o with
    | none =>
      obtain ⟨d, ds, rfl⟩ := List.exists_cons_of_ne_nil hne
      have hd := isNameMark_of_isWordChar (hw d (.head _))
      rw [isNameMark, Bool.or_eq_false_iff] at hd
      rw [Option.toList_none, List.nil_append, List.cons_append, dropOne, hd.1]
      rfl
    | some m => exact if_pos (ho m rfl)
  have hend : ∀ d ∈ (c.toList ++ rest).head?, isWordChar d = false := by
    cases c with
    | none => exact fun d hd => (hr d hd).1
    | some m =>
      rintro d ⟨⟩
      rw [← Bool.not_eq_true]
      intro hd
      have hm := isNameMark_of_isWordChar hd
      rw [isNameMark, hc _ rfl, Bool.or_true] at hm
      cases hm
  have hclosing : dropOne isClosing (c.toList ++ rest) = rest := by
    cases c with
    | none =>
      cases rest with
      | nil => rfl
      | cons d rest =>
        have hd := (hr d rfl).2
        rw [isNameMark, Bool.or_eq_false_iff] at hd
        exact if_neg (by simp [hd.2])
    | some m => exact if_pos (hc m rfl)
  rw [name?, hopening, word?_of_isWordChar hne hw hend]
  exact congrArg (fun r => some (w, r)) hclosing

namespace Word

variable (w : Word) {rest : List Char}

theorem ascii : ∀ c ∈ w.text, c.toNat < 128 := fun c hc => Text.toNat_lt_of_isPlain (w.plain c hc)

theorem not_mem {c : Char} (hc : isPlain c = false) : c ∉ w.text := by
  intro h
  have := w.plain c h
  rw [hc] at this; cases this

theorem exists_cons : ∃ c cs, w.text = c :: cs ∧ isPlain c = true := by
  obtain ⟨c, cs, h⟩ := List.exists_cons_of_ne_nil w.ne_nil
  exact ⟨c, cs, h, w.plain c (h ▸ .head _)⟩

theorem lower_ofList : Text.lower (String.ofList w.text) = String.ofList w.lower :=
  Text.lower_of_ascii w.ascii

/-! ### Reading a word -/

theorem word?_append (h : Ends rest) : word? (w.text ++ rest) = some (w.text, rest) :=
  word?_of_isWordChar w.ne_nil (fun c hc => Text.isWordChar_of_isPlain (w.plain c hc))
    fun c hc => (h c hc).1

theorem name?_append (h : Ends rest) : name? (w.text ++ rest) = some (w.text, rest) :=
  name?_marked (o := none) (c := none) nofun nofun w.ne_nil
    (fun c hc => Text.isWordChar_of_isPlain (w.plain c hc)) h

theorem qualifiedName?_append (h : Ends rest) (hp : mark? '.' rest = none) :
    qualifiedName? (w.text ++ rest) = some (w.text, rest) := by
  rw [qualifiedName?_eq, w.name?_append h, Option.bind_some, hp]; rfl

theorem skipBlanks_append : skipBlanks (w.text ++ rest) = w.text ++ rest := by
  obtain ⟨c, cs, hcs, hc⟩ := w.exists_cons
  rw [hcs, List.cons_append, skipBlanks,
    List.dropWhile_cons_of_neg (by simp [Text.isBlank_of_isPlain hc])]

theorem blanks?_space_append : blanks? (' ' :: (w.text ++ rest)) = some (w.text ++ rest) := by
  show some (skipBlanks (w.text ++ rest)) = _
  rw [w.skipBlanks_append]

theorem blanks?_append : blanks? (w.text ++ rest) = none := by
  obtain ⟨c, cs, hcs, hc⟩ := w.exists_cons
  rw [hcs, List.cons_append, blanks?, Text.isBlank_of_isPlain hc]
  rfl

theorem mark?_append {m : Char} (hm : isPlain m = false) : mark? m (w.text ++ rest) = none := by
  obtain ⟨c, cs, hcs, hc⟩ := w.exists_cons
  have hne : c ≠ m := by rintro rfl; rw [hc] at hm; cases hm
  rw [mark?, w.skipBlanks_append, hcs]
  exact if_neg hne

theorem mark?_space_append {m : Char} (hm : isPlain m = false) :
    mark? m (' ' :: (w.text ++ rest)) = none := w.mark?_append hm

end Word

/-! ### Reading a keyword -/

section

variable {k x r : List Char}

/-- A keyword is read where the letters are its own, in either case. -/
theorem keyword?_eq_some_of (hx : ∀ a ∈ k, ∀ c ∈ x, sameLetter a c = (c.toLower == a)) :
    keyword? k x = some r ↔ ∃ p, x = p ++ r ∧ p.map Char.toLower = k := by
  induction k generalizing x with
  | nil =>
    simp only [keyword?, Option.some.injEq, List.map_eq_nil_iff]
    constructor
    · rintro rfl
      exact ⟨[], rfl, rfl⟩
    · rintro ⟨p, rfl, rfl⟩
      rfl
  | cons a k ih =>
    cases x with
    | nil => simp [keyword?]
    | cons c x =>
      rw [keyword?, hx a (.head _) c (.head _)]
      split
      · rename_i ha
        rw [ih fun b hb d hd => hx b (.tail _ hb) d (.tail _ hd)]
        constructor
        · rintro ⟨p, rfl, rfl⟩
          exact ⟨c :: p, rfl, by rw [List.map_cons, beq_iff_eq.1 ha]⟩
        · rintro ⟨p, he, hp⟩
          cases p with
          | nil => cases hp
          | cons d p =>
            obtain ⟨-, rfl⟩ := List.cons.inj he
            exact ⟨p, rfl, (List.cons.inj hp).2⟩
      · rename_i ha
        constructor
        · rintro ⟨⟩
        · rintro ⟨p, he, hp⟩
          cases p with
          | nil => cases hp
          | cons d p =>
            obtain ⟨rfl, rfl⟩ := List.cons.inj he
            exact absurd (beq_iff_eq.2 (List.cons.inj hp).1) ha

theorem keyword?_eq_some (hx : ∀ c ∈ x, c.toNat < 128) :
    keyword? k x = some r ↔ ∃ p, x = p ++ r ∧ p.map Char.toLower = k :=
  keyword?_eq_some_of fun a _ c hc => sameLetter_ascii (hx c hc) a

theorem keyword?_eq_none (hx : ∀ c ∈ x, c.toNat < 128) (h : ¬ k <+: x.map Char.toLower) :
    keyword? k x = none := by
  rw [Option.eq_none_iff_forall_ne_some]
  intro r hr
  obtain ⟨p, rfl, rfl⟩ := (keyword?_eq_some hx).1 hr
  exact h (by rw [List.map_append]; exact List.prefix_append ..)

theorem keyword?_lower_append (x rest : List Char) :
    keyword? (x.map Char.toLower) (x ++ rest) = some rest := by
  induction x with
  | nil => rfl
  | cons c x ih =>
    rw [List.map_cons, List.cons_append, keyword?, sameLetter, beq_self_eq_true, Bool.true_or]
    exact ih

theorem Spelling.keyword?_append (s : Spelling k) (rest : List Char) :
    keyword? k (s.text ++ rest) = some rest := by
  have h := keyword?_lower_append s.text rest
  rwa [s.map_toLower] at h

end

theorem phrase?_append {a b : List Char} (s : Spelling a) (t : Spelling b) (rest : List Char) :
    phrase? [a, b] (s.text ++ ' ' :: (t.text ++ rest)) = some rest := by
  rw [phrase?_cons, s.keyword?_append, Option.bind_some, t.blanks?_space_append]
  exact t.keyword?_append rest

theorem startsWith_eq_false {k x : List Char} (h : keyword? k x = none) (ks : List (List Char)) :
    startsWith (k :: ks) x = false := by
  cases ks with
  | nil => rw [startsWith, phrase?, h]; rfl
  | cons k' ks => rw [startsWith, phrase?_cons, h]; rfl

/-- Keywords do not go on over a space. -/
theorem keyword?_space_append {k x : List Char} (hk : IsKeyword k) (hx : ∀ c ∈ x, c.toNat < 128)
    (h : ¬ k <+: x.map Char.toLower) (rest : List Char) : keyword? k (x ++ ' ' :: rest) = none := by
  rw [keyword?_append_cons hk.sameLetter_space, keyword?_eq_none hx h]; rfl

end ErCanvas.Sql
