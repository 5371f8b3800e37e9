import ErCanvas.Proofs.Sql.Joined
import ErCanvas.Proofs.Sql.Word

/-! # Sentences

A clause is a sentence: parts with single spaces between them, each a word or a word with a list in
parentheses.

* `Inside`, `Fragment`: what can stand in parentheses, and what a clause can be put together from.
* `not_infix_sentence`: two words of a phrase stand in a sentence only as neighbours.
* `contains_sentence`: so they do whatever the case of their letters.
* `search?_sentence`: a search for a keyword passes over the parts without it. -/

namespace ErCanvas.Sql

open Nesting (top)
open Text (isBlank isPlain)

/-- The parts with single spaces between them. -/
def sentence (ts : List (List Char)) : List Char := [' '].intercalate ts

theorem sentence_singleton (t : List Char) : sentence [t] = t := List.intercalate_singleton

theorem sentence_cons_cons (t u : List Char) (ts : List (List Char)) :
    sentence (t :: u :: ts) = t ++ ' ' :: sentence (u :: ts) := by
  rw [sentence, List.intercalate_cons_cons]; simp [sentence]

theorem sentence_cons {ts : List (List Char)} (h : ts ≠ []) (t : List Char) :
    sentence (t :: ts) = t ++ ' ' :: sentence ts := by
  obtain ⟨u, us, rfl⟩ := List.exists_cons_of_ne_nil h
  exact sentence_cons_cons t u us

theorem exists_sentence_cons (t : List Char) (ts : List (List Char)) :
    ∃ r, sentence (t :: ts) = t ++ r := by
  cases ts with
  | nil => exact ⟨[], by rw [sentence_singleton, List.append_nil]⟩
  | cons u ts => exact ⟨_, sentence_cons_cons t u ts⟩

theorem map_sentence {f : Char → Char} (hf : f ' ' = ' ') (ts : List (List Char)) :
    (sentence ts).map f = sentence (ts.map (List.map f)) := by
  induction ts with
  | nil => rfl
  | cons t ts ih =>
    cases ts with
    | nil => simp only [List.map_cons, List.map_nil, sentence_singleton]
    | cons u ts =>
      rw [sentence_cons_cons, List.map_append, List.map_cons, ih, hf]
      exact (sentence_cons_cons ..).symm

/-! ### Fragments -/

/-- A character of words, or one that stands between and around them. -/
def isClauseChar (c : Char) : Bool := isPlain c || [' ', '(', ')', ','].contains c

theorem isNeutral_of_isPlain {c : Char} (h : isPlain c = true) : isNeutral c = true :=
  Text.forall_ascii (P := fun c => isPlain c = true → isNeutral c = true) (by decide +kernel)
    (Text.toNat_lt_of_isPlain h) h

theorem isClauseChar_of_isPlain {c : Char} (h : isPlain c = true) : isClauseChar c = true := by
  rw [isClauseChar, h, Bool.true_or]

theorem toNat_lt_of_isClauseChar {c : Char} (h : isClauseChar c = true) : c.toNat < 128 := by
  simp only [isClauseChar, Bool.or_eq_true, List.contains_eq_mem, decide_eq_true_eq, List.mem_cons,
    List.not_mem_nil, or_false] at h
  rcases h with h | rfl | rfl | rfl | rfl
  · exact Text.toNat_lt_of_isPlain h
  all_goals decide

/-- The text can stand in parentheses. -/
structure Inside (cs : List Char) : Prop where
  chars : ∀ c ∈ cs, isClauseChar c
  tidy : Tidy cs
  wellFormed : WellFormed cs

/-- The text can be part of a clause, or a clause. -/
structure Fragment (cs : List Char) : Prop extends Inside cs where
  undivided : Undivided cs
  ne_nil : cs ≠ []

theorem Inside.append {a b : List Char} (ha : Inside a) (hb : Inside b) : Inside (a ++ b) where
  chars c hc := (List.mem_append.1 hc).elim (ha.chars c) (hb.chars c)
  tidy := ha.tidy.append hb.tidy
  wellFormed := ha.wellFormed.append hb.wellFormed

theorem Inside.space {a b : List Char} (ha : Inside a) (hb : Inside b) (hna : a ≠ []) (hnb : b ≠ []) :
    Inside (a ++ ' ' :: b) where
  chars c hc := by
    rcases List.mem_append.1 hc with hc | hc
    · exact ha.chars c hc
    · rcases List.mem_cons.1 hc with rfl | hc
      · decide
      · exact hb.chars c hc
  tidy := ha.tidy.space hb.tidy hna hnb
  wellFormed := by
    have hs : WellFormed [' '] := wellFormed_of_isNeutral (List.forall_mem_singleton.2 rfl)
    exact ha.wellFormed.append (hs.append hb.wellFormed)

/-- Words and commas can stand in parentheses. -/
theorem inside_of_plain {cs : List Char} (h : ∀ c ∈ cs, c = ',' ∨ isPlain c) : Inside cs where
  chars c hc := by
    rcases h c hc with rfl | hc
    · decide
    · exact isClauseChar_of_isPlain hc
  tidy := .of_not_blank fun c hc => by
    rcases h c hc with rfl | hc
    · decide
    · exact Text.isBlank_of_isPlain hc
  wellFormed := wellFormed_of_isNeutral fun c hc => by
    rcases h c hc with rfl | hc
    · decide
    · exact isNeutral_of_isPlain hc

theorem inside_listed {cs : List (List Char)} (h : ∀ c ∈ cs, Fragment c) : Inside (listed cs) := by
  induction cs with
  | nil => exact inside_of_plain (List.forall_mem_nil _)
  | cons c cs ih =>
    obtain ⟨hc, hcs⟩ := List.forall_mem_cons.1 h
    cases cs with
    | nil => rw [listed_singleton]; exact hc.toInside
    | cons d cs =>
      have hne : listed (d :: cs) ≠ [] := by
        obtain ⟨r, hr⟩ := exists_listed_cons d cs
        rw [hr]
        exact List.append_ne_nil_of_left_ne_nil (hcs d (.head _)).ne_nil r
      have hcomma : Inside [','] := inside_of_plain (by simp)
      have := (hc.toInside.append hcomma).space (ih hcs) (by simp) hne
      rw [listed_cons_cons]
      rwa [List.append_assoc] at this

namespace Fragment

variable {a b cs : List Char}

theorem word (w : Word) : Fragment w.text where
  toInside := inside_of_plain fun c hc => .inr (w.plain c hc)
  undivided := undivided_of_not_mem (w.not_mem (by decide))
  ne_nil := w.ne_nil

theorem ascii (h : Fragment cs) : ∀ c ∈ cs, c.toNat < 128 := fun c hc =>
  toNat_lt_of_isClauseChar (h.chars c hc)

theorem append (ha : Fragment a) (hb : Fragment b) : Fragment (a ++ b) where
  toInside := ha.toInside.append hb.toInside
  undivided := ha.undivided.append ha.wellFormed.scan hb.undivided
  ne_nil := List.append_ne_nil_of_left_ne_nil ha.ne_nil b

theorem space (ha : Fragment a) (hb : Fragment b) : Fragment (a ++ ' ' :: b) where
  toInside := ha.toInside.space hb.toInside ha.ne_nil hb.ne_nil
  undivided := by
    have hs : Undivided [' '] := rfl
    exact ha.undivided.append ha.wellFormed.scan (hs.append rfl hb.undivided)
  ne_nil := by simp

theorem parens (h : Inside a) : Fragment ('(' :: (a ++ [')'])) where
  chars := by
    intro c hc
    simp only [List.mem_cons, List.mem_append, List.not_mem_nil, or_false] at hc
    rcases hc with rfl | hc | rfl
    · decide
    · exact h.chars c hc
    · decide
  tidy := by
    have hopen : Tidy ['('] := .of_not_blank (List.forall_mem_singleton.2 rfl)
    have hclose : Tidy [')'] := .of_not_blank (List.forall_mem_singleton.2 rfl)
    exact hopen.append (h.tidy.append hclose)
  wellFormed := h.wellFormed.parens
  undivided := h.wellFormed.undivided_parens
  ne_nil := by simp

theorem sentence {ts : List (List Char)} (hne : ts ≠ []) (h : ∀ t ∈ ts, Fragment t) :
    Fragment (sentence ts) := by
  induction ts with
  | nil => exact absurd rfl hne
  | cons t ts ih =>
    obtain ⟨ht, hts⟩ := List.forall_mem_cons.1 h
    cases ts with
    | nil => rwa [sentence_singleton]
    | cons u ts =>
      rw [sentence_cons_cons]
      exact ht.space (ih (by simp) hts)

theorem isClause (h : Fragment cs) : IsClause cs where
  closed := h.wellFormed.scan
  undivided := h.undivided
  trimmed := Text.trim_eq_self h.tidy.head h.tidy.last
  ne_nil := h.ne_nil

end Fragment

/-! ### Parts -/

/-- A word, with or without a list of words in parentheses. -/
inductive IsPart : List Char → Prop where
  | word (w : Word) : IsPart w.text
  | call (w : Word) {ws : List Char} (h : ∀ c ∈ ws, c = ',' ∨ isPlain c) :
      IsPart (w.text ++ '(' :: (ws ++ [')']))

namespace IsPart

variable {t : List Char}

theorem fragment (h : IsPart t) : Fragment t := by
  cases h with
  | word w => exact .word w
  | call w h => exact (Fragment.word w).append (.parens (inside_of_plain h))

theorem exists_word (h : IsPart t) : ∃ (w : Word) (r : List Char), t = w.text ++ r := by
  cases h with
  | word w => exact ⟨w, [], (List.append_nil _).symm⟩
  | call w h => exact ⟨w, _, rfl⟩

theorem space_not_mem (h : IsPart t) : ' ' ∉ t := by
  cases h with
  | word w => exact w.not_mem (by decide)
  | call w h =>
    intro hm
    simp only [List.mem_append, List.mem_cons, List.not_mem_nil, or_false] at hm
    rcases hm with hm | hm | hm | hm
    · exact w.not_mem (by decide) hm
    · cases hm
    · rcases h _ hm with hm | hm
      · cases hm
      · cases hm
    · cases hm

end IsPart

/-! ### Phrases in a sentence -/

section

variable {a b s t : List Char} {c : Char}

theorem prefix_append_cons (ha : c ∉ a) (ht : c ∉ t) :
    a ++ c :: b <+: t ++ c :: s ↔ a = t ∧ b <+: s := by
  induction a generalizing t with
  | nil =>
    cases t with
    | nil => simp
    | cons d t =>
      have hd : c ≠ d := fun h => ht (h ▸ .head _)
      simp [hd]
  | cons e a ih =>
    have he := List.ne_of_not_mem_cons ha
    have ha := List.not_mem_of_not_mem_cons ha
    cases t with
    | nil => simp [he.symm]
    | cons d t =>
      simp only [List.cons_append, List.cons_prefix_cons, ih ha (List.not_mem_of_not_mem_cons ht),
        List.cons.injEq, and_assoc]

/-- Where a text without the character `c` stands before one, a part with `c` in it lies across that
place or behind it. -/
theorem infix_append_cons_iff (ha : c ∉ a) (ht : c ∉ t) :
    a ++ c :: b <:+: t ++ c :: s ↔ (a <:+ t ∧ b <+: s) ∨ a ++ c :: b <:+: s := by
  induction t with
  | nil =>
    rw [List.nil_append, List.infix_cons_iff]
    have := prefix_append_cons (b := b) (s := s) ha (List.not_mem_nil (a := c))
    rw [List.nil_append] at this
    rw [this, List.suffix_nil]
  | cons d t ih =>
    have := prefix_append_cons (b := b) (s := s) ha ht
    rw [List.cons_append] at this ⊢
    rw [List.infix_cons_iff, this, ih (List.not_mem_of_not_mem_cons ht), List.suffix_cons_iff]
    tauto

/-- A text without the character `c` does not go on over it. -/
theorem prefix_append_cons_iff (hb : c ∉ b) : b <+: t ++ c :: s ↔ b <+: t := by
  constructor
  · intro h
    rcases List.prefix_or_prefix_of_prefix h (List.prefix_append t _) with h' | ⟨r, rfl⟩
    · exact h'
    · cases r with
      | nil => rw [List.append_nil]
      | cons d r =>
        have hd : d = c := (List.cons_prefix_cons.1 ((List.prefix_append_right_inj t).1 h)).1
        exact absurd (List.mem_append_right t (hd ▸ .head _)) hb
  · exact fun h => h.trans (List.prefix_append t _)

theorem prefix_sentence {ts : List (List Char)} (hb : ' ' ∉ b) :
    b <+: sentence (t :: ts) ↔ b <+: t := by
  cases ts with
  | nil => rw [sentence_singleton]
  | cons u ts => rw [sentence_cons_cons, prefix_append_cons_iff hb]

/-- **Two words with a space between them** stand in a sentence where two neighbours end and begin with
them, and nowhere else. -/
theorem not_infix_sentence (ha : ' ' ∉ a) (hb : ' ' ∉ b) {ts : List (List Char)}
    (h : ∀ t ∈ ts, ' ' ∉ t) :
    ¬ a ++ ' ' :: b <:+: sentence ts ↔ ts.IsChain fun x y => ¬ (a <:+ x ∧ b <+: y) := by
  induction ts with
  | nil => simp [sentence]
  | cons t ts ih =>
    obtain ⟨ht, hts⟩ := List.forall_mem_cons.1 h
    cases ts with
    | nil =>
      have : ¬ a ++ ' ' :: b <:+: sentence [t] := by
        rw [sentence_singleton]
        exact fun hi => ht (hi.subset (by simp))
      simp [this]
    | cons u ts =>
      rw [sentence_cons_cons, infix_append_cons_iff ha ht, prefix_sentence hb, not_or, ih hts,
        List.isChain_cons_cons]

end

/-! ### Phrases in upper case -/

theorem contains_eq_true {p cs : List Char} : contains p cs = true ↔ p <:+: cs := by
  induction cs with
  | nil => simp [contains]
  | cons c cs ih =>
    rw [contains, Bool.or_eq_true, ih, List.isPrefixOf_iff_prefix, List.infix_cons_iff]

/-- A phrase in upper case stands in the upper case of a text where the phrase in lower case stands in
its lower case. -/
theorem contains_upper {cs p : List Char} (hcs : ∀ c ∈ cs, c.toNat < 128)
    (hp : (p.map Char.toLower).map Char.toUpper = p) :
    contains p (Text.upper cs) = true ↔ p.map Char.toLower <:+: cs.map Char.toLower := by
  rw [contains_eq_true, Text.upper_of_ascii hcs]
  have hlu : (cs.map Char.toUpper).map Char.toLower = cs.map Char.toLower := by
    rw [List.map_map]
    exact List.map_congr_left fun c hc => Text.toLower_toUpper (hcs c hc)
  have hul : (cs.map Char.toLower).map Char.toUpper = cs.map Char.toUpper := by
    rw [List.map_map]
    exact List.map_congr_left fun c hc => Text.toUpper_toLower (hcs c hc)
  constructor
  · intro h
    have := h.map Char.toLower
    rwa [hlu] at this
  · intro h
    have := h.map Char.toUpper
    rwa [hul, hp] at this

/-- **A phrase of two words** stands in a sentence where two neighbouring parts end and begin with them. -/
theorem contains_sentence {p a b : List Char} (hp : (p.map Char.toLower).map Char.toUpper = p)
    (hab : p.map Char.toLower = a ++ ' ' :: b) (ha : ' ' ∉ a) (hb : ' ' ∉ b) {ts : List (List Char)}
    (hne : ts ≠ []) (hts : ∀ t ∈ ts, IsPart t) :
    contains p (Text.upper (sentence ts)) = false ↔
      ts.IsChain fun x y => ¬ (a <:+ x.map Char.toLower ∧ b <+: y.map Char.toLower) := by
  have hspace : ∀ t ∈ ts.map (List.map Char.toLower), ' ' ∉ t := by
    intro t ht hm
    obtain ⟨u, hu, rfl⟩ := List.mem_map.1 ht
    obtain ⟨d, hd, hds⟩ := List.mem_map.1 hm
    rw [Text.eq_space_of_toLower ((hts u hu).fragment.ascii d hd) hds] at hd
    exact (hts u hu).space_not_mem hd
  have hascii := (Fragment.sentence hne fun t ht => (hts t ht).fragment).ascii
  have hchain := not_infix_sentence ha hb hspace
  rw [List.isChain_map] at hchain
  rw [← hchain, ← map_sentence rfl, ← hab, ← Bool.not_eq_true, contains_upper hascii hp]

/-! ### Search in a sentence -/

section

variable {α : Type} {f : List Char → Option α} {k x : List Char}

theorem search?_of_some {a : α} (h : f x = some a) : search? f x = some a := by
  cases x with
  | nil => exact h
  | cons c x => rw [search?, h]

theorem search?_cons_of_none {c : Char} (h : f (c :: x) = none) :
    search? f (c :: x) = search? f x := by
  rw [search?, h]

theorem search?_space_append (hk : IsKeyword k) (hf : ∀ cs, keyword? k cs = none → f cs = none)
    (hx : ∀ c ∈ x, c.toNat < 128) (h : ¬ k <:+: x.map Char.toLower) (rest : List Char) :
    search? f (x ++ ' ' :: rest) = search? f rest := by
  induction x with
  | nil =>
    refine search?_cons_of_none (hf _ ?_)
    obtain ⟨a, k, rfl⟩ := List.exists_cons_of_ne_nil hk.1
    rw [keyword?, hk.sameLetter_space a (.head _)]; rfl
  | cons c x ih =>
    have hnone : f (c :: (x ++ ' ' :: rest)) = none :=
      hf _ (keyword?_space_append hk hx (fun hp => h hp.isInfix) rest)
    rw [List.cons_append, search?_cons_of_none hnone]
    refine ih (fun d hd => hx d (.tail _ hd)) fun hi => h ?_
    rw [List.map_cons]
    exact hi.trans (List.suffix_cons _ _).isInfix

theorem search?_eq_none (hf : ∀ cs, keyword? k cs = none → f cs = none)
    (hx : ∀ c ∈ x, c.toNat < 128) (h : ¬ k <:+: x.map Char.toLower) : search? f x = none := by
  induction x with
  | nil => exact hf _ (keyword?_eq_none (by simp) fun hp => h hp.isInfix)
  | cons c x ih =>
    rw [search?_cons_of_none (hf _ (keyword?_eq_none hx fun hp => h hp.isInfix))]
    refine ih (fun d hd => hx d (.tail _ hd)) fun hi => h ?_
    rw [List.map_cons]
    exact hi.trans (List.suffix_cons _ _).isInfix

/-- **A search for a keyword** passes over the parts of a sentence that do not have it. -/
theorem search?_sentence (hk : IsKeyword k) (hf : ∀ cs, keyword? k cs = none → f cs = none)
    {ts us : List (List Char)}
    (h : ∀ t ∈ ts, (∀ c ∈ t, c.toNat < 128) ∧ ¬ k <:+: t.map Char.toLower) (hu : us ≠ []) :
    search? f (sentence (ts ++ us)) = search? f (sentence us) := by
  induction ts with
  | nil => rfl
  | cons t ts ih =>
    obtain ⟨⟨ht, hkt⟩, hts⟩ := List.forall_mem_cons.1 h
    rw [List.cons_append, sentence_cons (by simp [hu]), search?_space_append hk hf ht hkt, ih hts]

theorem search?_sentence_eq_none (hk : IsKeyword k) (hf : ∀ cs, keyword? k cs = none → f cs = none)
    {ts : List (List Char)}
    (h : ∀ t ∈ ts, (∀ c ∈ t, c.toNat < 128) ∧ ¬ k <:+: t.map Char.toLower) :
    search? f (sentence ts) = none := by
  rcases List.eq_nil_or_concat' ts with rfl | ⟨ts, t, rfl⟩
  · refine search?_eq_none hf (by simp [sentence]) fun hi => hk.1 ?_
    exact List.infix_nil.1 hi
  · obtain ⟨ht, hkt⟩ := h t (by simp)
    rw [search?_sentence hk hf (fun u hu => h u (List.mem_append_left _ hu)) (by simp),
      sentence_singleton, search?_eq_none hf ht hkt]

end

end ErCanvas.Sql
