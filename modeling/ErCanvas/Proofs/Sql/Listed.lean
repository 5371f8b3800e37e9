import ErCanvas.Proofs.Sql.Joined

/-! # Lists of clauses

Where each of several texts closes what it opens, the list of them is divided text by text
(`clauses_listed_eq_flatMap`). What a text is divided into is trimmed, is not empty and is not divided any
further. So of such texts just those come back from their list as they are that are trimmed, not empty and
without a comma between clauses (`clauses_joined`).

* `ClosesAll`: a text that closes what it opens, in whatever order. -/

namespace ErCanvas.Sql

open Nesting (top surplus)

variable {c cs p : List Char}

/-! ### Texts that close what they open -/

/-- The text closes the quotes that it opens, and as many parentheses as it opens. -/
structure ClosesAll (cs : List Char) : Prop where
  quotes : openQuote none cs = none
  parens : (unquoted none cs).count '(' = (unquoted none cs).count ')'

theorem ClosesAll.scan (h : ClosesAll cs) : top.scan cs = top := by
  rw [Nesting.scan_top, surplus, h.quotes, h.parens, Int.sub_self]
  rfl

theorem clauses_listed_eq_flatMap {ts : List (List Char)} (h : ∀ t ∈ ts, ClosesAll t) :
    clauses (listed ts) = ts.flatMap clauses := by
  induction ts with
  | nil => rfl
  | cons t ts ih =>
    obtain ⟨ht, hts⟩ := List.forall_mem_cons.1 h
    cases ts with
    | nil => rw [listed_singleton, List.flatMap_singleton]
    | cons u ts =>
      rw [List.flatMap_cons, listed_cons_cons, clauses_append_comma ht.scan, clauses_blank_cons rfl,
        ih hts]

/-! ### Texts without separators -/

/-- A text is one piece exactly if no comma in it separates. -/
theorem undivided_iff : Undivided cs ↔ ∀ j, ¬ IsSeparator cs j := by
  have hsep : separators cs = [] ↔ ∀ j, ¬ IsSeparator cs j := by
    rw [separators, List.filter_eq_nil_iff]
    constructor
    · intro h j hj
      have hlt : j < cs.length := (List.getElem?_eq_some_iff.1 hj.1).1
      exact h j (List.mem_range.2 hlt) (decide_eq_true hj)
    · exact fun h j _ hj => h j (of_decide_eq_true hj)
  rw [← hsep, Undivided, pieces_eq_cutAt, separatorsFrom_top]
  constructor
  · intro h
    have hlen := congrArg List.length h
    simpa [cutAt] using hlen
  · intro h
    rw [h]
    simp [cutAt, slice]

theorem Undivided.of_append {a b : List Char} (ha : Undivided a) (hs : top.scan a = top)
    (h : Undivided (a ++ b)) : Undivided b := by
  obtain ⟨p, ps, hp⟩ := List.exists_cons_of_ne_nil (pieces_ne_nil top b)
  have ha : pieces top a = [] ++ [a] := ha
  have hab : pieces top (a ++ b) = (a ++ p) :: ps := pieces_append ha (by rwa [hs])
  rw [h] at hab
  obtain ⟨he, rfl⟩ := List.cons.inj hab
  rw [Undivided, hp, List.append_cancel_left he]

theorem Undivided.trim (h : Undivided cs) : Undivided (Text.trim cs) := by
  obtain ⟨a, b, ha, -, he⟩ := Text.exists_trim_eq cs
  have hcomma : ',' ∉ a := fun hm => by cases ha _ hm
  rw [he] at h
  exact (undivided_of_not_mem hcomma).of_append (scan_top_of_blank ha) (pieces_of_append h)

/-- The pieces of a text are not divided, the first one where it starts. -/
theorem pieces_of_piece {n : Nesting} {ps : List (List Char)} (h : pieces n cs = p :: ps) :
    pieces n p = [p] ∧ ∀ q ∈ ps, Undivided q := by
  induction cs generalizing n p ps with
  | nil =>
    cases h
    exact ⟨rfl, List.forall_mem_nil _⟩
  | cons c cs ih =>
    by_cases hc : n.separates c = true
    · obtain ⟨rfl, -⟩ := Nesting.eq_top_of_separates hc
      rw [pieces_of_separates hc] at h
      obtain ⟨rfl, rfl⟩ := List.cons.inj h
      obtain ⟨q, qs, hq⟩ := List.exists_cons_of_ne_nil (pieces_ne_nil top cs)
      rw [hq]
      exact ⟨rfl, List.forall_mem_cons.2 (ih hq)⟩
    · obtain ⟨q, qs, hq⟩ := List.exists_cons_of_ne_nil (pieces_ne_nil (n.step c) cs)
      rw [pieces_of_not_separates hc hq] at h
      obtain ⟨rfl, rfl⟩ := List.cons.inj h
      obtain ⟨hfirst, hrest⟩ := ih hq
      exact ⟨pieces_of_not_separates hc hfirst, hrest⟩

theorem undivided_of_mem_pieces (h : p ∈ pieces top cs) : Undivided p := by
  obtain ⟨q, qs, hq⟩ := List.exists_cons_of_ne_nil (pieces_ne_nil top cs)
  rw [hq] at h
  exact List.forall_mem_cons.2 (pieces_of_piece hq) p h

/-! ### Joining and dividing -/

/-- Every clause of a text is trimmed, is not empty and is not divided any further. -/
theorem of_mem_clauses (h : c ∈ clauses cs) : c ≠ [] ∧ Text.trim c = c ∧ Undivided c := by
  obtain ⟨hc, hne⟩ := List.mem_filter.1 h
  obtain ⟨p, hp, rfl⟩ := List.mem_map.1 hc
  refine ⟨by simpa using hne, Text.trim_trim p, (undivided_of_mem_pieces hp).trim⟩

/-- **Dividing undoes joining** of texts that close what they open, exactly if they are trimmed, not empty
and without separators. A comma behind such a text divides what is before it from what is behind it. -/
theorem clauses_joined :
    (∀ ts : List (List Char), (∀ t ∈ ts, ClosesAll t) →
      (clauses (listed ts) = ts ↔ ∀ t ∈ ts, t ≠ [] ∧ Text.trim t = t ∧ ∀ j, ¬ IsSeparator t j)) ∧
    ∀ a b, ClosesAll a → clauses (a ++ ',' :: b) = clauses a ++ clauses b := by
  refine ⟨fun ts h => ⟨fun heq t ht => ?_, fun hts => ?_⟩, fun a b ha => clauses_append_comma ha.scan b⟩
  · rw [clauses_listed_eq_flatMap h] at heq
    rw [← heq] at ht
    obtain ⟨u, -, hu⟩ := List.mem_flatMap.1 ht
    obtain ⟨hne, htrim, hundivided⟩ := of_mem_clauses hu
    exact ⟨hne, htrim, undivided_iff.1 hundivided⟩
  · refine clauses_listed fun t ht => ?_
    obtain ⟨hne, htrim, hsep⟩ := hts t ht
    exact ⟨(h t ht).scan, undivided_iff.2 hsep, htrim, hne⟩

/-- Texts with commas in quotes, in parentheses, and where more parentheses have been closed than opened. -/
def commaTexts : List (List Char) := ["a ', \"'".toList, ") , (".toList, "f(1, 2)".toList]

theorem clauses_joined_commaTexts :
    (∀ t ∈ commaTexts, ClosesAll t) ∧ listed commaTexts = "a ', \"', ) , (, f(1, 2)".toList ∧
      clauses (listed commaTexts) = commaTexts ∧
      clauses (") ,(".toList ++ ',' :: " b, ".toList) = [") ,(".toList, "b".toList] := by
  have hcloses : ∀ t ∈ commaTexts, ClosesAll t := by
    simp only [commaTexts, List.forall_mem_cons]
    exact ⟨⟨by decide, by decide⟩, ⟨by decide, by decide⟩, ⟨by decide, by decide⟩, List.forall_mem_nil _⟩
  obtain ⟨hlisted, happend⟩ := clauses_joined
  have hone : ∀ t ∈ commaTexts, t ≠ [] ∧ Text.trim t = t ∧ ∀ j, ¬ IsSeparator t j := by
    simp only [← undivided_iff, commaTexts, List.forall_mem_cons]
    exact ⟨⟨by decide, by decide, by decide⟩, ⟨by decide, by decide, by decide⟩,
      ⟨by decide, by decide, by decide⟩, List.forall_mem_nil _⟩
  refine ⟨hcloses, by decide, (hlisted _ hcloses).2 hone, ?_⟩
  rw [happend _ _ ⟨by decide, by decide⟩]
  decide

end ErCanvas.Sql
