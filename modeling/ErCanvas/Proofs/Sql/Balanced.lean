import ErCanvas.Proofs.Sql.Quotation

/-! # Balanced texts

Well-formed texts are those of a grammar: characters that are neither quotes nor parentheses, texts in
quotes, balanced texts in parentheses, and any such texts one after the other. The scan, which keeps only a
depth and a quote, thus finds the parenthesis that closes a group of this grammar, and no other
(`closingIndex_group`).

* `Balanced`: the texts of the grammar.
* `wellFormed_iff_balanced`: what the scan counts is what the grammar says.
* `IsGroup`: a balanced text between two parentheses. -/

namespace ErCanvas.Sql

open Nesting (top)

/-- Texts whose parentheses nest; what stands in quotes is read as it is. -/
inductive Balanced : List Char → Prop
  | nil : Balanced []
  | char {c : Char} (h : isNeutral c) : Balanced [c]
  | quoted {q : Char} {x : List Char} (hq : isQuote q) (hx : q ∉ x) : Balanced (q :: (x ++ [q]))
  | parens {a : List Char} (h : Balanced a) : Balanced ('(' :: (a ++ [')']))
  | append {a b : List Char} (ha : Balanced a) (hb : Balanced b) : Balanced (a ++ b)

/-! ### Texts in any quotes -/

section

variable {q : Char} {x : List Char}

theorem step_top_quote (hq : isQuote q) : top.step q = ⟨0, some q⟩ := by
  rw [Nesting.step, top, if_pos hq]

theorem scan_run (hq : isQuote q) (hx : q ∉ x) : top.scan (q :: (x ++ [q])) = top := by
  show (top.step q).scan (x ++ [q]) = top
  rw [step_top_quote hq, Nesting.scan_append, scan_of_not_mem hx]
  exact if_pos rfl

theorem wellFormed_run (hq : isQuote q) (hx : q ∉ x) : WellFormed (q :: (x ++ [q])) := by
  refine wellFormed_iff.2 ⟨scan_run hq hx, fun p hp => ?_⟩
  rcases List.prefix_cons_iff.1 hp with rfl | ⟨r, rfl, hr⟩
  · decide
  · rcases List.prefix_concat_iff.1 hr with rfl | hr
    · rw [scan_run hq hx]
      decide
    · -- the quote is still open
      have hqr : q ∉ r := fun hm => hx (hr.subset hm)
      have hscan : top.scan (q :: r) = ⟨0, some q⟩ := by
        show (top.step q).scan r = _
        rw [step_top_quote hq, scan_of_not_mem hqr]
      exact Int.le_of_eq (congrArg Nesting.depth hscan).symm

end

theorem Balanced.wellFormed {cs : List Char} (h : Balanced cs) : WellFormed cs := by
  induction h with
  | nil => exact wellFormed_of_isNeutral (List.forall_mem_nil _)
  | char h => exact wellFormed_of_isNeutral (List.forall_mem_singleton.2 h)
  | quoted hq hx => exact wellFormed_run hq hx
  | parens _ ih => exact ih.parens
  | append _ _ iha ihb => exact iha.append ihb

/-! ### The front of a well-formed text -/

namespace WellFormed

variable {q c : Char} {cs : List Char}

theorem of_neutral_cons (h : WellFormed (c :: cs)) (hc : isNeutral c) : WellFormed cs :=
  (WellFormed.of_append (a := [c]) h (step_of_isNeutral hc 0)).2

/-- A quote in front is closed by the next one of its kind. -/
theorem of_quote_cons (h : WellFormed (q :: cs)) (hq : isQuote q) :
    ∃ x r, cs = x ++ q :: r ∧ q ∉ x ∧ WellFormed r := by
  have hmem : q ∈ cs := by
    by_contra hm
    have hscan : (top.step q).scan cs = top := h.scan
    rw [step_top_quote hq, scan_of_not_mem hm] at hscan
    cases congrArg Nesting.quote hscan
  obtain ⟨x, r, rfl, hx⟩ := List.eq_append_cons_of_mem hmem
  have hsplit : q :: (x ++ q :: r) = q :: (x ++ [q]) ++ r := by simp
  rw [hsplit] at h
  exact ⟨x, r, rfl, hx, (h.of_append (scan_run hq hx)).2⟩

/-- A parenthesis in front is closed behind a well-formed text: the scan has to come out again. -/
theorem of_open_cons (h : WellFormed ('(' :: cs)) :
    ∃ a b, cs = a ++ ')' :: b ∧ WellFormed a ∧ WellFormed b := by
  have hscan : Nesting.scan ⟨1, none⟩ cs = top := h.scan
  cases hk : closing? ⟨1, none⟩ cs with
  | none =>
    have hinside := (closing?_eq_none_iff (by decide)).1 hk cs List.prefix_rfl
    rw [hscan] at hinside
    exact absurd hinside (by decide)
  | some k =>
    obtain ⟨a, b, rfl, -, ha⟩ := closing?_body.1 hk
    have hsplit : '(' :: (a ++ ')' :: b) = '(' :: (a ++ [')']) ++ b := by simp
    rw [hsplit] at h
    exact ⟨a, b, rfl, ha, (h.of_append ha.parens.scan).2⟩

theorem head_ne_close (h : WellFormed (c :: cs)) : c ≠ ')' := by
  rintro rfl
  have := h.nested [')'] (List.prefix_append [')'] cs)
  exact absurd this (by decide)

end WellFormed

theorem balanced_of_wellFormed {cs : List Char} (h : WellFormed cs) : Balanced cs := by
  induction hn : cs.length using Nat.strongRecOn generalizing cs with
  | ind n ih =>
    -- what stands in front, by its first character, and a shorter text behind it
    cases cs with
    | nil => exact .nil
    | cons c cs =>
      by_cases hq : isQuote c = true
      · obtain ⟨x, r, rfl, hx, hr⟩ := h.of_quote_cons hq
        have hrest : Balanced r := ih _ (by simp [← hn]; omega) hr rfl
        have hfront := (Balanced.quoted hq hx).append hrest
        rwa [List.cons_append, List.append_assoc] at hfront
      · by_cases ho : c = '('
        · subst ho
          obtain ⟨a, b, rfl, ha, hb⟩ := h.of_open_cons
          have hbody : Balanced a :=
            ih _ (by simp only [← hn, List.length_cons, List.length_append]; omega) ha rfl
          have hrest : Balanced b := ih _ (by simp [← hn]; omega) hb rfl
          have hfront := hbody.parens.append hrest
          rwa [List.cons_append, List.append_assoc] at hfront
        · have hc : isNeutral c = true := by simp [isNeutral, hq, ho, h.head_ne_close]
          have hrest : Balanced cs := ih _ (by simp [← hn]) (h.of_neutral_cons hc) rfl
          exact (Balanced.char hc).append hrest

/-- **Counting recognises the grammar.** -/
theorem wellFormed_iff_balanced {cs : List Char} : WellFormed cs ↔ Balanced cs :=
  ⟨balanced_of_wellFormed, Balanced.wellFormed⟩

/-! ### Groups -/

/-- A balanced text stands between the places, and a closing parenthesis behind it. -/
structure IsGroup (cs : List Char) (o i : ℕ) : Prop where
  lt : o < i
  close : cs[i]? = some ')'
  balanced : Balanced (between cs o i)

section

variable {cs : List Char} {o i j : ℕ}

theorem closingIndex_iff_isGroup (ho : cs[o]? = some '(') :
    closingIndex cs o = .ok (i : ℤ) ↔ IsGroup cs o i := by
  rw [closingIndex_eq_ok ho, wellFormed_iff_balanced]
  exact ⟨fun ⟨hlt, hi, hb⟩ => ⟨hlt, hi, hb⟩, fun h => ⟨h.lt, h.close, h.balanced⟩⟩

/-- There is always an answer: a place, or `-1`. -/
theorem closingIndex_cases (cs : List Char) (o : ℕ) :
    closingIndex cs o = .ok (-1) ∨ ∃ i : ℕ, closingIndex cs o = .ok (i : ℤ) := by
  rw [closingIndex_natCast]
  cases closing? top (cs.drop o) with
  | none => exact .inl rfl
  | some k => exact .inr ⟨o + k, rfl⟩

/-- **The closing parenthesis is found** exactly where it ends a balanced group. There is at most one such
place, and `-1` says that there is none. -/
theorem closingIndex_group (ho : cs[o]? = some '(') :
    (∀ i : ℕ, closingIndex cs o = .ok (i : ℤ) ↔ IsGroup cs o i) ∧
      (∀ i j, IsGroup cs o i → IsGroup cs o j → i = j) ∧
      (closingIndex cs o = .ok (-1) ↔ ¬ ∃ i, IsGroup cs o i) := by
  refine ⟨fun i => closingIndex_iff_isGroup ho, fun i j hi hj => ?_, ?_⟩
  · have hi := (closingIndex_iff_isGroup ho).2 hi
    rw [(closingIndex_iff_isGroup ho).2 hj] at hi
    exact (Int.ofNat.inj (Except.ok.inj hi)).symm
  · constructor
    · rintro hnone ⟨i, hi⟩
      rw [(closingIndex_iff_isGroup ho).2 hi] at hnone
      have : (i : ℤ) = -1 := Except.ok.inj hnone
      omega
    · intro hnone
      refine (closingIndex_cases cs o).resolve_right ?_
      rintro ⟨i, hi⟩
      exact hnone ⟨i, (closingIndex_iff_isGroup ho).1 hi⟩

end

/-- A group with parentheses in quotes and quotes in quotes, and then one whose quote is never closed. -/
def groups : List Char := "(a ')(', \"it's\" (1, 2)) (b 'c)".toList

theorem closingIndex_group_quoted :
    groups[0]? = some '(' ∧ groups[24]? = some '(' ∧ IsGroup groups 0 22 ∧
      (∀ i, IsGroup groups 0 i → i = 22) ∧ ∀ i, ¬ IsGroup groups 24 i := by
  have h0 : groups[0]? = some '(' := by decide
  have h24 : groups[24]? = some '(' := by decide +kernel
  obtain ⟨hiff, hunique, -⟩ := closingIndex_group h0
  obtain ⟨-, -, hnone⟩ := closingIndex_group h24
  have h22 : IsGroup groups 0 22 := (hiff 22).1 (by decide +kernel)
  have hopen := hnone.1 (by decide +kernel)
  exact ⟨h0, h24, h22, fun i hi => hunique i 22 hi h22, fun i hi => hopen ⟨i, hi⟩⟩

end ErCanvas.Sql
