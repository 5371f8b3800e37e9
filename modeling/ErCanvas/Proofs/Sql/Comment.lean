import Mathlib.Data.List.Chain
import Mathlib.Data.List.Infix
import ErCanvas.Proofs.Text.Trim
import ErCanvas.Sql.Comment

/-! # Clean scripts

A script without the start of a comment is cleaned by collapsing its white space alone. Two such scripts
with a semicolon between them are cleaned apart, up to spaces at the semicolon
(`clean_append_semicolon`). -/

namespace ErCanvas.Sql

open Text (Blank trim trimStart isBlank dropWhileEnd)

/-! ### Comments -/

/-- Nothing in the text starts a comment. -/
structure Uncommented (cs : List Char) : Prop where
  noLine : ¬ ['-', '-'] <:+: cs
  noBlock : ¬ ['/', '*'] <:+: cs

theorem uncommented_of_not_mem {cs : List Char} (h : ∀ c ∈ cs, c ≠ '-' ∧ c ≠ '/') :
    Uncommented cs :=
  ⟨fun hi => (h _ (hi.subset (.head _))).1 rfl, fun hi => (h _ (hi.subset (.head _))).2 rfl⟩

/-- Where a character that is not in the part stands, the part is on one of its sides. -/
theorem infix_append_cons {p a b : List Char} {c : Char} (hc : c ∉ p) (h : p <:+: a ++ c :: b) :
    p <:+: a ∨ p <:+: b := by
  obtain ⟨l, r, h⟩ := h
  rcases List.append_eq_append_iff.1 h with ⟨d, rfl, -⟩ | ⟨d, hl, hd⟩
  · exact .inl ⟨l, d, rfl⟩
  · cases d with
    | nil => exact .inl ⟨l, [], by simpa using hl⟩
    | cons e d =>
      obtain ⟨rfl, rfl⟩ := List.cons.inj hd
      rcases List.append_eq_append_iff.1 hl with ⟨u, -, rfl⟩ | ⟨u, -, hu⟩
      · exact absurd (List.mem_append_right u (.head _)) hc
      · cases u with
        | nil =>
          have hp : p = c :: d := hu.symm
          exact absurd (hp ▸ .head _) hc
        | cons f u =>
          obtain ⟨rfl, rfl⟩ := List.cons.inj hu
          exact .inr ⟨u, r, rfl⟩

/-- A character of no comment keeps two texts apart. -/
theorem Uncommented.append_cons {a b : List Char} {c : Char} (hc : c ∉ ['-', '/', '*'])
    (ha : Uncommented a) (hb : Uncommented b) : Uncommented (a ++ c :: b) := by
  have hline : c ∉ ['-', '-'] := fun hm => hc ((by simp : ['-', '-'] ⊆ ['-', '/', '*']) hm)
  have hblock : c ∉ ['/', '*'] := fun hm => hc ((by simp : ['/', '*'] ⊆ ['-', '/', '*']) hm)
  exact ⟨fun h => (infix_append_cons hline h).elim ha.noLine hb.noLine,
    fun h => (infix_append_cons hblock h).elim ha.noBlock hb.noBlock⟩

theorem infix_pair {x y : Char} {cs : List Char} (h : cs.head? = some y) :
    [x, y] <:+: x :: cs := by
  obtain ⟨r, rfl⟩ := List.head?_eq_some_iff.1 h
  exact (List.prefix_append [x, y] r).isInfix

theorem dropBlocks_of_not_infix {cs : List Char} (h : ¬ ['/', '*'] <:+: cs) : dropBlocks cs = cs := by
  induction cs with
  | nil => rw [dropBlocks]
  | cons c cs ih =>
    rw [dropBlocks, if_neg, ih fun hi => h (hi.trans (List.suffix_cons c cs).isInfix)]
    simp only [Bool.and_eq_true, decide_eq_true_eq]
    rintro ⟨rfl, hs⟩
    exact h (infix_pair hs)

theorem dropLines_of_not_infix {cs : List Char} (h : ¬ ['-', '-'] <:+: cs) :
    dropLines false cs = cs := by
  induction cs with
  | nil => rfl
  | cons c cs ih =>
    rw [dropLines, if_neg (by simp), if_neg, ih fun hi => h (hi.trans (List.suffix_cons c cs).isInfix)]
    simp only [Bool.and_eq_true, decide_eq_true_eq]
    rintro ⟨rfl, hs⟩
    exact h (infix_pair hs)

theorem clean_of_uncommented {cs : List Char} (h : Uncommented cs) :
    clean cs = trim (collapse false cs) := by
  rw [clean, dropBlocks_of_not_infix h.noBlock, dropLines_of_not_infix h.noLine]

/-! ### White space -/

theorem collapse_append_cons {c : Char} (hc : isBlank c = false) (blank : Bool) (a b : List Char) :
    collapse blank (a ++ c :: b) = collapse blank a ++ c :: collapse false b := by
  induction a generalizing blank with
  | nil => simp [collapse, hc]
  | cons d a ih =>
    rw [List.cons_append, collapse, collapse]
    split
    · split
      · exact ih true
      · rw [ih true]; rfl
    · rw [ih false]; rfl

theorem mem_collapse {blank : Bool} {cs : List Char} {c : Char} (h : c ∈ collapse blank cs) :
    c = ' ' ∨ c ∈ cs := by
  induction cs generalizing blank with
  | nil => cases h
  | cons d cs ih =>
    have ih : ∀ {blank}, c ∈ collapse blank cs → c = ' ' ∨ c ∈ d :: cs :=
      fun h => (ih h).imp_right (.tail d)
    rw [collapse] at h
    split at h
    · split at h
      · exact ih h
      · rcases List.mem_cons.1 h with h | h
        · exact .inl h
        · exact ih h
    · rcases List.mem_cons.1 h with rfl | h
      · exact .inr (.head _)
      · exact ih h

/-- The only white space that is left is the space. -/
theorem eq_space_of_mem_collapse {blank : Bool} {cs : List Char} {c : Char}
    (h : c ∈ collapse blank cs) (hc : isBlank c = true) : c = ' ' := by
  induction cs generalizing blank with
  | nil => cases h
  | cons d cs ih =>
    rw [collapse] at h
    split at h
    · split at h
      · exact ih h
      · rcases List.mem_cons.1 h with h | h
        · exact h
        · exact ih h
    · rename_i hd
      rcases List.mem_cons.1 h with rfl | h
      · exact absurd hc hd
      · exact ih h

/-- The text is made of spaces. -/
def Spaces (cs : List Char) : Prop := ∀ c ∈ cs, c = ' '

theorem spaces_of_subset {blank : Bool} {b cs : List Char} (hb : Blank b)
    (h : b ⊆ collapse blank cs) : Spaces b :=
  fun c hc => eq_space_of_mem_collapse (h hc) (hb c hc)

theorem blank_space : Blank [' '] := fun c hc => by cases List.mem_singleton.1 hc; rfl

theorem trim_collapse (blank : Bool) (cs : List Char) :
    trim (collapse blank cs) = trim (collapse false cs) := by
  cases blank with
  | false => rfl
  | true =>
    cases cs with
    | nil => rfl
    | cons c cs =>
      rw [collapse, collapse]
      split
      · exact (Text.trim_blank_append blank_space (collapse true cs)).symm
      · rfl

/-- White space in front of a script does not count. -/
theorem trim_collapse_blank_append {b : List Char} (hb : Blank b) (blank : Bool) (cs : List Char) :
    trim (collapse blank (b ++ cs)) = trim (collapse false cs) := by
  induction b generalizing blank with
  | nil => exact trim_collapse blank cs
  | cons c b ih =>
    have hb' : Blank b := fun d hd => hb d (.tail _ hd)
    rw [List.cons_append, collapse, if_pos (hb c (.head _))]
    split
    · exact ih hb' true
    · rw [← ih hb' true]
      exact Text.trim_blank_append blank_space _

/-- **Two scripts with a semicolon between them are cleaned apart.** -/
theorem clean_append_semicolon {a b : List Char} (ha : Uncommented a) (hb : Uncommented b) :
    ∃ s s', Spaces s ∧ Spaces s' ∧
      clean (a ++ ';' :: b) = clean a ++ (s ++ ';' :: (s' ++ clean b)) := by
  obtain ⟨s, hs, h1⟩ := Text.exists_blank_end (trimStart (collapse false a))
  obtain ⟨s', hs', h2⟩ := Text.exists_blank_dropWhileEnd (collapse false b)
  have hsub : s ⊆ collapse false a := by
    intro c hc
    refine (List.dropWhile_sublist isBlank).subset (?_ : c ∈ trimStart (collapse false a))
    rw [h1]; exact List.mem_append_right _ hc
  have hsub' : s' ⊆ collapse false b := by
    intro c hc
    refine (Text.dropWhileEnd_sublist isBlank _).subset ?_
    rw [h2]; exact List.mem_append_left _ hc
  refine ⟨s, s', spaces_of_subset hs hsub, spaces_of_subset hs' hsub', ?_⟩
  · rw [clean_of_uncommented (ha.append_cons (by decide) hb), clean_of_uncommented ha,
      clean_of_uncommented hb, collapse_append_cons (by decide),
      Text.trim_append_cons (by decide), h2, h1]
    exact List.append_assoc ..

/-! ### Tidy texts -/

/-- White space is single spaces inside the text. -/
structure Tidy (cs : List Char) : Prop where
  spaces : ∀ c ∈ cs, isBlank c → c = ' '
  single : cs.IsChain fun c d => isBlank c → isBlank d = false
  head : ∀ c ∈ cs.head?, isBlank c = false
  last : ∀ c ∈ cs.getLast?, isBlank c = false

namespace Tidy

variable {a b cs : List Char}

theorem of_not_blank (h : ∀ c ∈ cs, isBlank c = false) : Tidy cs where
  spaces c hc hb := by rw [h c hc] at hb; cases hb
  single := by
    have hp : cs.Pairwise fun c d => isBlank c → isBlank d = false :=
      List.pairwise_of_forall_mem_list fun _ _ d hd _ => h d hd
    exact hp.isChain
  head c hc := h c (List.mem_of_mem_head? hc)
  last c hc := h c (List.mem_of_mem_getLast? hc)

theorem append (ha : Tidy a) (hb : Tidy b) : Tidy (a ++ b) where
  spaces c hc := (List.mem_append.1 hc).elim (ha.spaces c) (hb.spaces c)
  single := List.isChain_append.2 ⟨ha.single, hb.single, fun c _ d hd _ => hb.head d hd⟩
  head c hc := by
    cases a with
    | nil => exact hb.head c hc
    | cons d a => exact ha.head c hc
  last c hc := by
    rcases List.eq_nil_or_concat' b with rfl | ⟨b, d, rfl⟩
    · exact ha.last c (by simpa using hc)
    · exact hb.last c (by simpa using hc)

/-- Two tidy texts with a space between them are tidy. -/
theorem space (ha : Tidy a) (hb : Tidy b) (hna : a ≠ []) (hnb : b ≠ []) :
    Tidy (a ++ ' ' :: b) where
  spaces c hc hbl := by
    rcases List.mem_append.1 hc with hc | hc
    · exact ha.spaces c hc hbl
    · rcases List.mem_cons.1 hc with rfl | hc
      · rfl
      · exact hb.spaces c hc hbl
  single := by
    refine List.isChain_append.2 ⟨ha.single, ?_, fun c hc _ _ hbl => ?_⟩
    · exact List.isChain_cons.2 ⟨fun d hd _ => hb.head d hd, hb.single⟩
    · rw [ha.last c hc] at hbl; cases hbl
  head c hc := by
    obtain ⟨d, a, rfl⟩ := List.exists_cons_of_ne_nil hna
    exact ha.head c hc
  last c hc := by
    obtain ⟨b, d, rfl⟩ := (List.eq_nil_or_concat' b).resolve_left hnb
    rw [← List.cons_append, ← List.append_assoc, List.getLast?_concat] at hc
    exact hb.last c (by rwa [List.getLast?_concat])

theorem collapse_eq (h : cs.IsChain fun c d => isBlank c → isBlank d = false)
    (hs : ∀ c ∈ cs, isBlank c → c = ' ') : collapse false cs = cs := by
  induction cs with
  | nil => rfl
  | cons c cs ih =>
    rw [List.isChain_cons] at h
    have ih := ih h.2 fun d hd => hs d (.tail _ hd)
    rw [collapse]
    split
    · rename_i hc
      cases cs with
      | nil => rw [hs c (.head _) hc]; rfl
      | cons d cs =>
        have hd : isBlank d = false := h.1 d rfl hc
        have hcol : ∀ blank, collapse blank (d :: cs) = d :: collapse false cs := fun blank => by
          simp [collapse, hd]
        rw [hcol] at ih ⊢
        rw [hs c (.head _) hc, ih]; rfl
    · rw [ih]

theorem trim_collapse_eq (h : Tidy cs) : trim (collapse false cs) = cs := by
  rw [collapse_eq h.single h.spaces, Text.trim_eq_self h.head h.last]

/-- What stands behind a tidy text is cleaned apart. -/
theorem trim_collapse_append {c : Char} (h : Tidy (a ++ [c])) (b : List Char) :
    trim (collapse false (a ++ c :: b)) = a ++ c :: dropWhileEnd isBlank (collapse false b) := by
  have hc : isBlank c = false := h.last c (by simp)
  have ha : collapse false a = a :=
    collapse_eq (List.isChain_append.1 h.single).1 fun d hd => h.spaces d (List.mem_append_left _ hd)
  have hstart : trimStart a = a := by
    cases a with
    | nil => rfl
    | cons d a => exact List.dropWhile_cons_of_neg (by simp [h.head d rfl])
  rw [collapse_append_cons hc, ha, Text.trim_append_cons hc, hstart]

/-- **A tidy script without comments is clean as it is.** -/
theorem clean_eq (h : Tidy cs) (hu : Uncommented cs) : clean cs = cs := by
  rw [clean_of_uncommented hu, h.trim_collapse_eq]

end Tidy

end ErCanvas.Sql
