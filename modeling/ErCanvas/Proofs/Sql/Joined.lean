import Mathlib.Data.List.Basic
import ErCanvas.Proofs.Sql.Nesting

/-! # Joined clauses

Behind a text that leaves the scan at the top, what follows is divided as if it stood alone: the piece
in progress goes on, or a comma ends it. So clauses that are not divided themselves come back from the
list that they are written in (`clauses_listed`).

* `IsClause`: a text that can stand as a clause. -/

namespace ErCanvas.Sql

open Nesting (top)

variable {a b cs : List Char}

/-! ### Pieces of joined texts -/

theorem pieces_append {n : Nesting} {x p : List Char} {qs ps : List (List Char)}
    (ha : pieces n a = qs ++ [x]) (hb : pieces (n.scan a) b = p :: ps) :
    pieces n (a ++ b) = qs ++ (x ++ p) :: ps := by
  induction a generalizing n qs x with
  | nil =>
    have ha : [] ++ [[]] = qs ++ [x] := ha
    obtain ⟨rfl, h⟩ := List.append_inj' ha rfl
    cases h
    exact hb
  | cons c a ih =>
    obtain ⟨rs, y, hr⟩ := (List.eq_nil_or_concat' (pieces (n.step c) a)).resolve_left
      (pieces_ne_nil _ _)
    have hab := ih hr hb
    by_cases hc : n.separates c = true
    · rw [Nesting.step_of_separates hc] at hr hab
      rw [pieces_of_separates hc, hr] at ha
      obtain ⟨rfl, h⟩ := List.append_inj' (List.cons_append.trans ha) rfl
      cases h
      rw [List.cons_append, pieces_of_separates hc, hab]; rfl
    · cases rs with
      | nil =>
        rw [pieces_of_not_separates hc hr] at ha
        have ha : [] ++ [c :: y] = qs ++ [x] := ha
        obtain ⟨rfl, h⟩ := List.append_inj' ha rfl
        cases h
        exact pieces_of_not_separates hc hab
      | cons r rs =>
        rw [pieces_of_not_separates hc hr] at ha
        obtain ⟨rfl, h⟩ := List.append_inj' (List.cons_append.trans ha) rfl
        cases h
        exact pieces_of_not_separates hc hab

/-- What is not divided is not divided before its end. -/
theorem pieces_of_append {n : Nesting} {b : List Char} (h : pieces n (a ++ b) = [a ++ b]) :
    pieces n a = [a] := by
  induction a generalizing n with
  | nil => rfl
  | cons c a ih =>
    rw [List.cons_append] at h
    by_cases hc : n.separates c = true
    · rw [pieces_of_separates hc] at h
      exact absurd (List.cons.inj h).2 (pieces_ne_nil n _)
    · obtain ⟨p, ps, hp⟩ := List.exists_cons_of_ne_nil (pieces_ne_nil (n.step c) (a ++ b))
      rw [pieces_of_not_separates hc hp] at h
      obtain ⟨he, rfl⟩ := List.cons.inj h
      rw [(List.cons.inj he).2] at hp
      exact pieces_of_not_separates hc (ih hp)

/-- A comma behind a text that leaves the scan at the top ends its last piece. -/
theorem pieces_append_comma (ha : top.scan a = top) (b : List Char) :
    pieces top (a ++ ',' :: b) = pieces top a ++ pieces top b := by
  obtain ⟨qs, x, hx⟩ := (List.eq_nil_or_concat' (pieces top a)).resolve_left (pieces_ne_nil _ _)
  have hb : pieces (top.scan a) (',' :: b) = [] :: pieces top b := by
    rw [ha]; exact pieces_of_separates rfl b
  rw [pieces_append hx hb, hx, List.append_nil, List.append_assoc]; rfl

theorem clauses_append_comma (ha : top.scan a = top) (b : List Char) :
    clauses (a ++ ',' :: b) = clauses a ++ clauses b := by
  rw [clauses, pieces_append_comma ha, List.map_append, List.filter_append]; rfl

theorem clauses_blank_cons {c : Char} (hc : Text.isBlank c = true) (cs : List Char) :
    clauses (c :: cs) = clauses cs := by
  have hn := isNeutral_of_isBlank hc
  have hsep : ¬ top.separates c = true := by
    intro h
    obtain ⟨-, rfl⟩ := Nesting.eq_top_of_separates h
    cases hc
  obtain ⟨p, ps, hp⟩ := List.exists_cons_of_ne_nil (pieces_ne_nil top cs)
  have hcons : pieces top (c :: cs) = (c :: p) :: ps :=
    pieces_of_not_separates hsep (by rw [Nesting.top, step_of_isNeutral hn]; exact hp)
  have htrim : Text.trim (c :: p) = Text.trim p :=
    Text.trim_blank_append (b := [c]) (by simpa [Text.Blank] using hc) p
  rw [clauses, clauses, hcons, hp, List.map_cons, List.map_cons, htrim]

/-! ### Texts that are not divided -/

/-- The text is one piece. -/
def Undivided (cs : List Char) : Prop := pieces top cs = [cs]

instance : DecidablePred Undivided := fun cs => inferInstanceAs (Decidable (pieces top cs = [cs]))

theorem Undivided.append (ha : Undivided a) (hs : top.scan a = top) (hb : Undivided b) :
    Undivided (a ++ b) := by
  have ha : pieces top a = [] ++ [a] := ha
  exact pieces_append ha (by rw [hs]; exact hb)

theorem pieces_of_not_separates_prefix {n : Nesting}
    (h : ∀ p c, p ++ [c] <+: cs → ¬ (n.scan p).separates c = true) : pieces n cs = [cs] := by
  induction cs generalizing n with
  | nil => rfl
  | cons c cs ih =>
    have hc : ¬ n.separates c = true := h [] c (List.prefix_append [c] cs)
    refine pieces_of_not_separates hc (ih fun p d hp => ?_)
    exact h (c :: p) d (List.cons_prefix_cons.2 ⟨rfl, hp⟩)

theorem undivided_of_not_mem (h : ',' ∉ cs) : Undivided cs := by
  refine pieces_of_not_separates_prefix fun p c hp hs => h ?_
  obtain ⟨-, rfl⟩ := Nesting.eq_top_of_separates hs
  exact hp.subset (by simp)

/-- Commas in parentheses do not divide. -/
theorem WellFormed.undivided_parens (h : WellFormed a) : Undivided ('(' :: (a ++ [')'])) := by
  refine pieces_of_not_separates_prefix fun p c hp hs => ?_
  obtain ⟨ht, rfl⟩ := Nesting.eq_top_of_separates hs
  cases p with
  | nil =>
    have hc : ',' = '(' := (List.cons_prefix_cons.1 hp).1
    cases hc
  | cons d p =>
    obtain ⟨rfl, hq⟩ := List.cons_prefix_cons.1 hp
    have hpa : p <+: a := by
      rcases List.prefix_concat_iff.1 hq with he | hpa
      · have := (List.append_inj' he rfl).2
        cases this
      · exact (List.prefix_append p [',']).trans hpa
    have hdepth : (1 : ℤ) ≤ (Nesting.scan ⟨1, none⟩ p).depth := by
      have hn := h.nested p hpa
      rw [Nesting.scan_eq]
      show (1 : ℤ) ≤ 1 + ((unquoted none p).count '(' - (unquoted none p).count ')')
      omega
    have hzero : (Nesting.scan ⟨1, none⟩ p).depth = 0 := congrArg Nesting.depth ht
    omega

/-! ### Clauses -/

/-- The text is one piece without white space around it, and leaves the scan at the top. -/
structure IsClause (cs : List Char) : Prop where
  closed : top.scan cs = top
  undivided : Undivided cs
  trimmed : Text.trim cs = cs
  ne_nil : cs ≠ []

theorem IsClause.clauses_eq (h : IsClause cs) : clauses cs = [cs] := by
  have hne : cs.isEmpty = false := by simpa using h.ne_nil
  rw [clauses, h.undivided, List.map_singleton, h.trimmed, List.filter_cons_of_pos (by simp [hne])]
  rfl

/-- The texts with a comma and a space between them. -/
def listed (cs : List (List Char)) : List Char := [',', ' '].intercalate cs

theorem listed_singleton (c : List Char) : listed [c] = c := List.intercalate_singleton

theorem listed_cons_cons (c d : List Char) (cs : List (List Char)) :
    listed (c :: d :: cs) = c ++ ',' :: ' ' :: listed (d :: cs) := by
  rw [listed, List.intercalate_cons_cons]; simp [listed]

theorem exists_listed_cons (c : List Char) (cs : List (List Char)) :
    ∃ r, listed (c :: cs) = c ++ r := by
  cases cs with
  | nil => exact ⟨[], by rw [listed_singleton, List.append_nil]⟩
  | cons d cs => exact ⟨_, listed_cons_cons c d cs⟩

theorem not_mem_listed {c : Char} (hc : c ∉ [',', ' ']) {cs : List (List Char)}
    (h : ∀ t ∈ cs, c ∉ t) : c ∉ listed cs := by
  induction cs with
  | nil => simp [listed]
  | cons t cs ih =>
    obtain ⟨ht, hcs⟩ := List.forall_mem_cons.1 h
    cases cs with
    | nil => rwa [listed_singleton]
    | cons u cs =>
      have ih := ih hcs
      simp only [listed_cons_cons, List.mem_append, List.mem_cons, not_or]
      simp only [List.mem_cons, List.not_mem_nil, or_false, not_or] at hc
      exact ⟨ht, hc.1, hc.2, ih⟩

/-- **Clauses come back** from the list that they are written in. -/
theorem clauses_listed {cs : List (List Char)} (h : ∀ c ∈ cs, IsClause c) :
    clauses (listed cs) = cs := by
  induction cs with
  | nil => rfl
  | cons c cs ih =>
    obtain ⟨hc, hcs⟩ := List.forall_mem_cons.1 h
    cases cs with
    | nil => rw [listed_singleton, hc.clauses_eq]
    | cons d cs =>
      rw [listed_cons_cons, clauses_append_comma hc.closed, clauses_blank_cons rfl, hc.clauses_eq,
        ih hcs]
      rfl

end ErCanvas.Sql
