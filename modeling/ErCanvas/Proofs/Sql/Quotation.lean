import ErCanvas.Proofs.Sql.Joined
import ErCanvas.Proofs.Sql.Semicolon

/-! # Texts in quotes

Where no single quote is open, the scan passes over a text in single quotes, whatever stands in it. So a
text that is well formed, undivided or closed with one text in the quotes is so with any other.

* `Quoteless`, `quoted`: a text without quotes, and the text in quotes. -/

namespace ErCanvas.Sql

open Nesting (top)

/-- No quote stands in the text. -/
def Quoteless (l : List Char) : Prop := ∀ c ∈ l, isQuote c = false

instance (l : List Char) : Decidable (Quoteless l) := List.decidableBAll (isQuote · = false) l

/-- The text in single quotes. -/
def quoted (l : List Char) : List Char := '\'' :: (l ++ ['\''])

theorem quoted_append (l t : List Char) : quoted l ++ t = '\'' :: (l ++ '\'' :: t) := by
  simp [quoted]

/-! ### Scans -/

theorem scan_of_not_mem {q : Char} {cs : List Char} (h : q ∉ cs) (d : ℤ) :
    Nesting.scan ⟨d, some q⟩ cs = ⟨d, some q⟩ := by
  induction cs with
  | nil => rfl
  | cons c cs ih =>
    have hstep : Nesting.step ⟨d, some q⟩ c = ⟨d, some q⟩ := if_neg (Ne.symm (List.ne_of_not_mem_cons h))
    show Nesting.scan (Nesting.step ⟨d, some q⟩ c) cs = _
    rw [hstep]
    exact ih (List.not_mem_of_not_mem_cons h)

/-- A start of the text in quotes leaves a quote open, if it is not empty. -/
theorem quote_scan_quoted {n : Nesting} {l p : List Char} {c : Char}
    (hn : ∀ q ∈ n.quote, q ∉ quoted l) (hl : '\'' ∉ l) (hp : p ++ [c] <+: quoted l) :
    (n.scan p).quote ≠ none ∨ c = '\'' := by
  obtain ⟨d, _ | q⟩ := n
  · cases p with
    | nil => exact .inr (List.cons_prefix_cons.1 hp).1
    | cons e p =>
      obtain ⟨rfl, hpl⟩ := List.cons_prefix_cons.1 hp
      have hpl : '\'' ∉ p := by
        rcases List.prefix_concat_iff.1 hpl with he | hpl
        · rw [(List.append_inj' he rfl).1]; exact hl
        · exact fun hm => hl (hpl.subset (List.mem_append_left _ hm))
      have hscan : Nesting.scan ⟨d, none⟩ ('\'' :: p) = ⟨d, some '\''⟩ := scan_of_not_mem hpl d
      rw [hscan]
      exact .inl (by simp)
  · have hq : q ∉ p := fun hm => hn q rfl (hp.subset (List.mem_append_left _ hm))
    rw [scan_of_not_mem hq]
    exact .inl (by simp)

section

variable {n : Nesting} {l : List Char}

theorem scan_quoted (hn : ∀ q ∈ n.quote, q ∉ quoted l) (hl : '\'' ∉ l) : n.scan (quoted l) = n := by
  obtain ⟨d, _ | q⟩ := n
  · show Nesting.scan ⟨d, some '\''⟩ (l ++ ['\'']) = _
    rw [Nesting.scan_append, scan_of_not_mem hl]; rfl
  · exact scan_of_not_mem (hn q rfl) d

theorem pieces_quoted (hn : ∀ q ∈ n.quote, q ∉ quoted l) (hl : '\'' ∉ l) :
    pieces n (quoted l) = [quoted l] := by
  refine pieces_of_not_separates_prefix fun p c hp hs => ?_
  obtain ⟨ht, rfl⟩ := Nesting.eq_top_of_separates hs
  rcases quote_scan_quoted hn hl hp with h | h
  · exact h (by rw [ht]; rfl)
  · cases h

theorem closing?_eq_none {cs : List Char} (h : ∀ p c, p ++ [c] <+: cs → ¬ (n.scan p).closes c = true) :
    closing? n cs = none := by
  induction cs generalizing n with
  | nil => rfl
  | cons c cs ih =>
    have hc : ¬ n.closes c = true := h [] c (List.prefix_append [c] cs)
    rw [closing?, if_neg hc, ih fun p d hp => h (c :: p) d (List.cons_prefix_cons.2 ⟨rfl, hp⟩)]
    rfl

theorem closing?_quoted (hn : ∀ q ∈ n.quote, q ∉ quoted l) (hl : '\'' ∉ l) :
    closing? n (quoted l) = none := by
  refine closing?_eq_none fun p c hp hs => ?_
  simp only [Nesting.closes, Bool.and_eq_true, Option.isNone_iff_eq_none, beq_iff_eq] at hs
  obtain ⟨⟨ht, rfl⟩, -⟩ := hs
  rcases quote_scan_quoted hn hl hp with h | h
  · exact h ht
  · cases h

/-- The parenthesis that closes stands in the first part of a text, or in the second. -/
theorem closing?_append_or (a b : List Char) :
    closing? n (a ++ b) = (closing? n a).or ((closing? (n.scan a) b).map (· + a.length)) := by
  induction a generalizing n with
  | nil => simp [closing?, Nesting.scan]
  | cons c a ih =>
    rw [List.cons_append, closing?, closing?]
    split
    · rfl
    · rw [ih]
      show _ = (Option.map _ _).or ((closing? ((n.step c).scan a) b).map _)
      cases closing? (n.step c) a with
      | some i => rfl
      | none =>
        cases closing? ((n.step c).scan a) b with
        | none => rfl
        | some i => simp [Nat.add_assoc]

end

/-! ### Other texts in the quotes -/

section

variable {a l l' z : List Char}

/-- If no single quote is open behind the text, then no quote that is open stands in a text in quotes. -/
theorem not_mem_quoted_of_openQuote (hl : Quoteless l) (ha : openQuote none a ≠ some '\'') :
    ∀ q ∈ openQuote none a, q ∉ quoted l := by
  rintro q hq hm
  have hquote : isQuote q = true := isQuote_of_openQuote (by simp) hq
  simp only [quoted, List.mem_cons, List.mem_append, List.not_mem_nil, or_false] at hm
  rcases hm with rfl | hm | rfl
  · exact ha hq
  · rw [hl q hm] at hquote; cases hquote
  · exact ha hq

theorem Quoteless.not_mem (hl : Quoteless l) : '\'' ∉ l := fun hm => by
  have := hl _ hm
  cases this

/-- The text in quotes is passed over in the search for the closing parenthesis. -/
theorem closing?_append_quoted (hl : Quoteless l) (ha : openQuote none a ≠ some '\'') (z : List Char) :
    closing? ⟨1, none⟩ (a ++ (quoted l ++ z)) = (closing? ⟨1, none⟩ a).or
      ((closing? (Nesting.scan ⟨1, none⟩ a) z).map (· + (quoted l).length + a.length)) := by
  have hn : ∀ q ∈ (Nesting.scan ⟨1, none⟩ a).quote, q ∉ quoted l := by
    rw [Nesting.scan_eq]
    exact not_mem_quoted_of_openQuote hl ha
  rw [closing?_append_or, closing?_append_or (n := Nesting.scan ⟨1, none⟩ a),
    closing?_quoted hn hl.not_mem, scan_quoted hn hl.not_mem, Option.none_or, Option.map_map]
  rfl

theorem closing?_append_quoted_eq_none (hl : Quoteless l) (hl' : Quoteless l')
    (ha : openQuote none a ≠ some '\'') (h : closing? ⟨1, none⟩ (a ++ (quoted l ++ z)) = none) :
    closing? ⟨1, none⟩ (a ++ (quoted l' ++ z)) = none := by
  rw [closing?_append_quoted hl ha, Option.or_eq_none_iff, Option.map_eq_none_iff] at h
  rw [closing?_append_quoted hl' ha, h.1, h.2]
  rfl

theorem wellFormed_iff_closing? {cs : List Char} :
    WellFormed cs ↔ closing? ⟨1, none⟩ (cs ++ [')']) = some cs.length := by
  rw [closing?_body]
  constructor
  · exact fun h => ⟨cs, [], rfl, rfl, h⟩
  · rintro ⟨a, b, he, hlen, ha⟩
    obtain ⟨rfl, -⟩ := List.append_inj he hlen.symm
    exact ha

/-- A text stays well formed with another text in the quotes. -/
theorem WellFormed.quoted (hl : Quoteless l) (hl' : Quoteless l') (ha : openQuote none a ≠ some '\'')
    (h : WellFormed (a ++ (Sql.quoted l ++ z))) : WellFormed (a ++ (Sql.quoted l' ++ z)) := by
  rw [wellFormed_iff_closing?, List.append_assoc, List.append_assoc] at h ⊢
  rw [closing?_append_quoted hl ha] at h
  rw [closing?_append_quoted hl' ha]
  cases hi : closing? ⟨1, none⟩ a with
  | some i =>
    have := (closing?_append hi []).1
    rw [hi] at h
    simp only [Option.some_or, Option.some.injEq, List.length_append] at h
    omega
  | none =>
    rw [hi, Option.none_or] at h
    obtain ⟨k, hk, hlen⟩ := Option.map_eq_some_iff.1 h
    rw [hk]
    simp only [List.length_append] at hlen
    simp only [Option.none_or, Option.map_some, Option.some.injEq, List.length_append]
    omega

/-- Behind an open quote the first of the two ends it, and the last begins another. -/
theorem Quoteless.openQuote_quoted (hl : Quoteless l) :
    openQuote (some '\'') (Sql.quoted l) = some '\'' := by
  have happend : ∀ l : List Char, Quoteless l → openQuote none (l ++ ['\'']) = some '\'' := by
    intro l hl
    induction l with
    | nil => rfl
    | cons c l ih =>
      rw [List.cons_append, openQuote, hl c (.head _)]
      exact ih fun d hd => hl d (.tail _ hd)
  exact happend l hl

/-- Before a text in quotes that ends at the top no quote is open. -/
theorem scan_eq_top_of_quoted (hl : Quoteless l) (h : top.scan (a ++ quoted l) = top) :
    top.scan a = top := by
  rw [Nesting.scan_append] at h
  by_cases ha : openQuote none a = some '\''
  · rw [Nesting.scan_eq, Nesting.scan_top, ha, hl.openQuote_quoted] at h
    cases congrArg Nesting.quote h
  · have hn : ∀ q ∈ (top.scan a).quote, q ∉ quoted l := by
      rw [Nesting.scan_top]
      exact not_mem_quoted_of_openQuote hl ha
    rwa [scan_quoted hn hl.not_mem] at h

theorem trim_append_quoted (a l : List Char) :
    Text.trim (a ++ quoted l) = Text.trimStart a ++ quoted l := by
  rw [quoted, Text.trim_append_cons (by decide), Text.dropWhileEnd_append_cons (by decide)]
  rfl

/-- A clause that ends with a text in quotes is one with another text. -/
theorem IsClause.quoted (hl : Quoteless l) (hl' : Quoteless l') (h : IsClause (a ++ Sql.quoted l)) :
    IsClause (a ++ Sql.quoted l') := by
  have ha := scan_eq_top_of_quoted hl h.closed
  have hn : ∀ q ∈ top.quote, q ∉ Sql.quoted l' := by rintro q ⟨⟩
  have htrim := h.trimmed
  rw [trim_append_quoted, List.append_cancel_right_eq] at htrim
  constructor
  · rw [Nesting.scan_append, ha, scan_quoted hn hl'.not_mem]
  · have hua : Undivided a := pieces_of_append h.undivided
    exact hua.append ha (pieces_quoted hn hl'.not_mem)
  · rw [trim_append_quoted, htrim]
  · exact List.append_ne_nil_of_right_ne_nil a (List.cons_ne_nil _ _)

end

end ErCanvas.Sql
