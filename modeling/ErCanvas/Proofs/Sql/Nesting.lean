import Mathlib.Data.List.Infix
import ErCanvas.Proofs.Text.Trim
import ErCanvas.Sql.Nesting

/-! # Nesting in bodies and clauses

A text is well formed when all its quotes are closed, its parentheses outside quotes are as many
opening as closing ones, and no start of it has more closing ones. The scan of a text keeps count of
just that (`scan_eq`). The parenthesis that closes a statement is the first one behind a well-formed
text (`closing?_eq_some_iff`), so the body of a statement is well formed, and so are its clauses.

* `openQuote`, `unquoted`: the quote that is open behind a text, and what of it stands outside quotes.
* `separators`, `cutAt`: the commas between clauses by their places, and the text cut at places.
* `clauses_of_closingIndex`: the clauses of the body of a statement. -/

namespace ErCanvas.Sql

/-! ### Quotes -/

/-- The quote that is open behind a text, when `q` is open before it. -/
def openQuote : Option Char → List Char → Option Char
  | q, [] => q
  | some q, c :: cs => openQuote (if c = q then none else some q) cs
  | none, c :: cs => openQuote (if isQuote c then some c else none) cs

/-- What of a text stands outside quotes, when `q` is open before it. -/
def unquoted : Option Char → List Char → List Char
  | _, [] => []
  | some q, c :: cs => unquoted (if c = q then none else some q) cs
  | none, c :: cs => if isQuote c then unquoted (some c) cs else c :: unquoted none cs

theorem isQuote_of_openQuote {cs : List Char} {r : Char} :
    ∀ {q : Option Char}, (∀ c ∈ q, isQuote c) → openQuote q cs = some r → isQuote r := by
  induction cs with
  | nil => intro q hq h; exact hq r h
  | cons c cs ih =>
    intro q hq h
    cases q with
    | none =>
      refine ih ?_ h
      intro d hd
      split at hd
      · cases hd; assumption
      · cases hd
    | some q =>
      refine ih ?_ h
      intro d hd
      split at hd
      · cases hd
      · exact hq d hd

/-! ### Scans -/

namespace Nesting

/-- How many more parentheses a text opens than it closes, when `q` is open before it. -/
def surplus (q : Option Char) (cs : List Char) : ℤ :=
  (unquoted q cs).count '(' - (unquoted q cs).count ')'

theorem scan_append (n : Nesting) (a b : List Char) : n.scan (a ++ b) = (n.scan a).scan b :=
  List.foldl_append

/-- **A scan counts the parentheses outside quotes** and keeps the open quote. -/
theorem scan_eq (n : Nesting) (cs : List Char) :
    n.scan cs = ⟨n.depth + surplus n.quote cs, openQuote n.quote cs⟩ := by
  induction cs generalizing n with
  | nil => simp [scan, surplus, unquoted, openQuote]
  | cons c cs ih =>
    show (n.step c).scan cs = _
    rw [ih]
    obtain ⟨d, _ | q⟩ := n
    · by_cases hq : isQuote c = true
      · simp [step, surplus, unquoted, openQuote, hq]
      · by_cases ho : c = '('
        · subst ho
          simp [step, surplus, unquoted, openQuote, hq]; omega
        · by_cases hc : c = ')'
          · subst hc
            simp [step, surplus, unquoted, openQuote, hq]; omega
          · simp [step, surplus, unquoted, openQuote, hq, ho, hc]
    · by_cases hc : c = q
      · simp [step, surplus, unquoted, openQuote, hc]
      · simp [step, surplus, unquoted, openQuote, hc]

theorem scan_top (cs : List Char) : top.scan cs = ⟨surplus none cs, openQuote none cs⟩ := by
  rw [scan_eq]; simp [top]

theorem step_of_separates {n : Nesting} {c : Char} (h : n.separates c = true) : n.step c = n := by
  obtain ⟨d, q⟩ := n
  simp only [separates, Bool.and_eq_true, Option.isNone_iff_eq_none, beq_iff_eq] at h
  obtain ⟨⟨rfl, rfl⟩, -⟩ := h
  rfl

theorem eq_top_of_separates {n : Nesting} {c : Char} (h : n.separates c = true) :
    n = top ∧ c = ',' := by
  obtain ⟨d, q⟩ := n
  simp only [separates, Bool.and_eq_true, Option.isNone_iff_eq_none, beq_iff_eq] at h
  obtain ⟨⟨rfl, rfl⟩, rfl⟩ := h
  exact ⟨rfl, rfl⟩

end Nesting

open Nesting (top surplus)

/-! ### Well-formed texts -/

/-- All quotes are closed, and parentheses outside quotes nest. -/
structure WellFormed (cs : List Char) : Prop where
  quotes : openQuote none cs = none
  balanced : (unquoted none cs).count '(' = (unquoted none cs).count ')'
  nested : ∀ p, p <+: cs → (unquoted none p).count ')' ≤ (unquoted none p).count '('

theorem wellFormed_iff {cs : List Char} :
    WellFormed cs ↔ top.scan cs = top ∧ ∀ p, p <+: cs → 0 ≤ (top.scan p).depth := by
  simp only [Nesting.scan_top, surplus]
  constructor
  · intro h
    refine ⟨?_, fun p hp => ?_⟩
    · rw [h.quotes, h.balanced]; simp [top]
    · have := h.nested p hp
      show (0 : ℤ) ≤ _ - _
      omega
  · rintro ⟨h, hp⟩
    simp only [top, Nesting.mk.injEq] at h
    exact ⟨h.2, by omega, fun p h => by have : (0 : ℤ) ≤ _ - _ := hp p h; omega⟩

namespace WellFormed

variable {a b cs : List Char}

theorem scan (h : WellFormed cs) : top.scan cs = top := (wellFormed_iff.1 h).1

/-- Where a start of a well-formed text leaves the scan at the top, both parts are well formed. -/
theorem of_append (h : WellFormed (a ++ b)) (ha : top.scan a = top) :
    WellFormed a ∧ WellFormed b := by
  obtain ⟨hs, hp⟩ := wellFormed_iff.1 h
  refine ⟨wellFormed_iff.2 ⟨ha, fun p hpa => hp p (hpa.trans (List.prefix_append a b))⟩,
    wellFormed_iff.2 ⟨?_, fun p hpb => ?_⟩⟩
  · rwa [Nesting.scan_append, ha] at hs
  · have h := hp (a ++ p) ((List.prefix_append_right_inj a).2 hpb)
    rwa [Nesting.scan_append, ha] at h

theorem append (ha : WellFormed a) (hb : WellFormed b) : WellFormed (a ++ b) := by
  obtain ⟨ha1, ha2⟩ := wellFormed_iff.1 ha
  obtain ⟨hb1, hb2⟩ := wellFormed_iff.1 hb
  refine wellFormed_iff.2 ⟨by rw [Nesting.scan_append, ha1, hb1], fun p hp => ?_⟩
  rcases List.prefix_or_prefix_of_prefix hp (List.prefix_append a b) with h | ⟨q, rfl⟩
  · exact ha2 p h
  · rw [Nesting.scan_append, ha1]
    exact hb2 q ((List.prefix_append_right_inj a).1 hp)

end WellFormed

/-- Characters that a scan passes over, outside quotes. -/
def isNeutral (c : Char) : Bool := !isQuote c && c != '(' && c != ')'

theorem step_of_isNeutral {c : Char} (h : isNeutral c = true) (d : ℤ) :
    Nesting.step ⟨d, none⟩ c = ⟨d, none⟩ := by
  simp only [isNeutral, Bool.and_eq_true, Bool.not_eq_true', bne_iff_ne] at h
  obtain ⟨⟨hq, ho⟩, hc⟩ := h
  simp [Nesting.step, hq, ho, hc]

theorem scan_of_isNeutral {cs : List Char} (h : ∀ c ∈ cs, isNeutral c) (d : ℤ) :
    Nesting.scan ⟨d, none⟩ cs = ⟨d, none⟩ := by
  induction cs with
  | nil => rfl
  | cons c cs ih =>
    show Nesting.scan (Nesting.step ⟨d, none⟩ c) cs = _
    rw [step_of_isNeutral (h c (.head _)), ih fun c hc => h c (.tail _ hc)]

theorem wellFormed_of_isNeutral {cs : List Char} (h : ∀ c ∈ cs, isNeutral c) : WellFormed cs := by
  refine wellFormed_iff.2 ⟨scan_of_isNeutral h 0, fun p hp => ?_⟩
  have hs : top.scan p = top := scan_of_isNeutral (fun c hc => h c (hp.subset hc)) 0
  rw [hs]; decide

theorem isNeutral_of_isBlank {c : Char} (h : Text.isBlank c = true) : isNeutral c = true := by
  have hne : ∀ d, Text.isBlank d = false → c ≠ d := by
    rintro d hd rfl
    rw [hd] at h; cases h
  simp [isNeutral, isQuote, hne '\'' rfl, hne '"' rfl, hne '\x60' rfl, hne '(' rfl, hne ')' rfl]

theorem WellFormed.parens {a : List Char} (h : WellFormed a) :
    WellFormed ('(' :: (a ++ [')'])) := by
  have hstep : ∀ p, p <+: a → Nesting.scan ⟨1, none⟩ p = ⟨1 + surplus none p, openQuote none p⟩ :=
    fun p _ => Nesting.scan_eq ⟨1, none⟩ p
  have ha : Nesting.scan ⟨1, none⟩ a = ⟨1, none⟩ := by
    rw [hstep a List.prefix_rfl, h.quotes, surplus, h.balanced]; simp
  refine wellFormed_iff.2 ⟨?_, fun p hp => ?_⟩
  · show Nesting.scan ⟨1, none⟩ (a ++ [')']) = top
    rw [Nesting.scan_append, ha]; rfl
  · rcases List.prefix_cons_iff.1 hp with rfl | ⟨q, rfl, hq⟩
    · decide
    · show 0 ≤ (Nesting.scan ⟨1, none⟩ q).depth
      rcases List.prefix_concat_iff.1 hq with rfl | hq
      · rw [Nesting.scan_append, ha]; decide
      · have := h.nested q hq
        rw [hstep q hq, surplus]
        show (0 : ℤ) ≤ 1 + (_ - _)
        omega

/-- White space leaves the nesting as it is, inside quotes too. -/
theorem step_of_isBlank {n : Nesting} (hn : ∀ q ∈ n.quote, isQuote q) {c : Char}
    (hc : Text.isBlank c = true) : n.step c = n := by
  have hneutral := isNeutral_of_isBlank hc
  obtain ⟨d, _ | q⟩ := n
  · exact step_of_isNeutral hneutral d
  · have hne : c ≠ q := by
      rintro rfl
      have hq := hn c rfl
      simp [isNeutral, hq] at hneutral
    exact if_neg hne

theorem scan_of_blank {n : Nesting} (hn : ∀ q ∈ n.quote, isQuote q) {b : List Char}
    (hb : Text.Blank b) : n.scan b = n := by
  induction b with
  | nil => rfl
  | cons c b ih =>
    show (n.step c).scan b = n
    rw [step_of_isBlank hn (hb c (.head _))]
    exact ih fun d hd => hb d (.tail _ hd)

theorem scan_top_of_blank {b : List Char} (hb : Text.Blank b) : top.scan b = top :=
  scan_of_blank (by simp [top]) hb

/-- A trimmed well-formed text is well formed. -/
theorem WellFormed.trim {cs : List Char} (h : WellFormed cs) : WellFormed (Text.trim cs) := by
  obtain ⟨a, b, ha, hb, he⟩ := Text.exists_trim_eq cs
  rw [he, List.append_assoc] at h
  have h := (h.of_append (scan_top_of_blank ha)).2
  refine (h.of_append ?_).1
  have hquote : ∀ q ∈ (top.scan (Text.trim cs)).quote, isQuote q := by
    rw [Nesting.scan_top]
    exact fun q => isQuote_of_openQuote (q := none) (by simp)
  have hs := h.scan
  rwa [Nesting.scan_append, scan_of_blank hquote hb] at hs

/-! ### The parenthesis that closes -/

theorem one_le_depth_step {n : Nesting} {c : Char} (hn : 1 ≤ n.depth) (hc : ¬ n.closes c = true) :
    1 ≤ (n.step c).depth := by
  obtain ⟨d, _ | q⟩ := n
  · simp only [Nesting.closes, Option.isNone_none, Bool.true_and, Bool.and_eq_true, beq_iff_eq,
      not_and] at hc hn
    unfold Nesting.step
    split_ifs with h1 h2 h3
    · exact hn
    · show 1 ≤ d + 1; omega
    · have := hc h3
      show 1 ≤ d - 1; omega
    · exact hn
  · show 1 ≤ (if c = q then (⟨d, none⟩ : Nesting) else ⟨d, some q⟩).depth
    split_ifs <;> exact hn

/-- The closing parenthesis is the first that ends a text which stays inside. -/
theorem closing?_eq_some {n : Nesting} (hn : 1 ≤ n.depth) {cs : List Char} {k : ℕ} :
    closing? n cs = some k ↔ ∃ a b, cs = a ++ ')' :: b ∧ a.length = k ∧ n.scan a = ⟨1, none⟩ ∧
      ∀ p, p <+: a → 1 ≤ (n.scan p).depth := by
  induction cs generalizing n k with
  | nil => simp [closing?]
  | cons c cs ih =>
    by_cases hc : n.closes c = true
    · obtain ⟨d, q⟩ := n
      simp only [Nesting.closes, Bool.and_eq_true, Option.isNone_iff_eq_none, beq_iff_eq] at hc
      obtain ⟨⟨rfl, rfl⟩, rfl⟩ := hc
      rw [closing?, if_pos (by rfl)]
      constructor
      · rintro h
        cases h
        exact ⟨[], cs, rfl, rfl, rfl, fun p hp => by rw [List.prefix_nil.1 hp]; exact hn⟩
      · rintro ⟨a, b, he, rfl, -, hp⟩
        cases a with
        | nil => rfl
        | cons c' a =>
          -- a longer text would go outside with its first character
          obtain ⟨rfl, -⟩ := List.cons.inj he
          have := hp [')'] (List.prefix_append [')'] a)
          exact absurd this (by decide)
    · have hstep := one_le_depth_step hn hc
      rw [closing?, if_neg hc]
      constructor
      · intro h
        obtain ⟨j, hj, rfl⟩ := Option.map_eq_some_iff.1 h
        obtain ⟨a, b, rfl, rfl, hs, hp⟩ := (ih hstep).1 hj
        refine ⟨c :: a, b, rfl, rfl, hs, fun p hpa => ?_⟩
        rcases List.prefix_cons_iff.1 hpa with rfl | ⟨q, rfl, hq⟩
        · exact hn
        · exact hp q hq
      · rintro ⟨a, b, he, rfl, hs, hp⟩
        cases a with
        | nil =>
          obtain ⟨rfl, -⟩ := List.cons.inj he
          have hs : n = ⟨1, none⟩ := hs
          rw [hs] at hc
          exact absurd rfl hc
        | cons c' a =>
          obtain ⟨rfl, rfl⟩ := List.cons.inj he
          have := (ih hstep).2 ⟨a, b, rfl, rfl, hs, fun p hpa =>
            hp (c :: p) (List.cons_prefix_cons.2 ⟨rfl, hpa⟩)⟩
          rw [this]; rfl

/-- No parenthesis closes where a text stays inside. -/
theorem closing?_eq_none_iff {n : Nesting} (hn : 1 ≤ n.depth) {cs : List Char} :
    closing? n cs = none ↔ ∀ p, p <+: cs → 1 ≤ (n.scan p).depth := by
  induction cs generalizing n with
  | nil =>
    refine iff_of_true rfl fun p hp => ?_
    rw [List.prefix_nil.1 hp]
    exact hn
  | cons c cs ih =>
    by_cases hc : n.closes c = true
    · rw [closing?, if_pos hc]
      refine iff_of_false (by simp) fun h => ?_
      have hstep : 1 ≤ (n.scan [c]).depth := h [c] (List.prefix_append [c] cs)
      obtain ⟨d, q⟩ := n
      simp only [Nesting.closes, Bool.and_eq_true, Option.isNone_iff_eq_none, beq_iff_eq] at hc
      obtain ⟨⟨rfl, rfl⟩, rfl⟩ := hc
      exact absurd hstep (by decide)
    · rw [closing?, if_neg hc, Option.map_eq_none_iff, ih (one_le_depth_step hn hc)]
      constructor
      · intro h p hp
        rcases List.prefix_cons_iff.1 hp with rfl | ⟨q, rfl, hq⟩
        · exact hn
        · exact h q hq
      · exact fun h p hp => h (c :: p) (List.cons_prefix_cons.2 ⟨rfl, hp⟩)

/-- **The body of a statement** is the well-formed text before a closing parenthesis. -/
theorem closing?_body {cs : List Char} {k : ℕ} :
    closing? ⟨1, none⟩ cs = some k ↔ ∃ a b, cs = a ++ ')' :: b ∧ a.length = k ∧ WellFormed a := by
  have hscan : ∀ p : List Char, Nesting.scan ⟨1, none⟩ p = ⟨1 + surplus none p, openQuote none p⟩ :=
    fun p => Nesting.scan_eq ⟨1, none⟩ p
  rw [closing?_eq_some (by decide)]
  refine exists_congr fun a => exists_congr fun b => ?_
  refine and_congr_right fun _ => and_congr_right fun _ => ?_
  rw [wellFormed_iff]
  simp only [hscan, Nesting.scan_top]
  simp only [top, Nesting.mk.injEq]
  constructor
  · rintro ⟨⟨h1, h2⟩, h3⟩
    exact ⟨⟨by omega, h2⟩, fun p hp => by have := h3 p hp; omega⟩
  · rintro ⟨⟨h1, h2⟩, h3⟩
    exact ⟨⟨by omega, h2⟩, fun p hp => by have := h3 p hp; omega⟩

/-! ### Pieces -/

theorem pieces_ne_nil (n : Nesting) (cs : List Char) : pieces n cs ≠ [] := by
  cases cs with
  | nil => simp [pieces]
  | cons c cs =>
    rw [pieces]
    split
    · simp
    · split <;> simp

theorem pieces_of_separates {n : Nesting} {c : Char} (h : n.separates c = true) (cs : List Char) :
    pieces n (c :: cs) = [] :: pieces n cs := by rw [pieces, if_pos h]

theorem pieces_of_not_separates {n : Nesting} {c : Char} (h : n.separates c ≠ true)
    {cs p : List Char} {ps : List (List Char)} (hp : pieces (n.step c) cs = p :: ps) :
    pieces n (c :: cs) = (c :: p) :: ps := by rw [pieces, if_neg h, hp]

/-- The pieces of a well-formed text are well formed. The text before the scan has come so far, `a`, is
the start of the piece in progress. -/
theorem wellFormed_pieces {a cs p : List Char} {ps : List (List Char)} (h : WellFormed (a ++ cs))
    (hp : pieces (top.scan a) cs = p :: ps) : WellFormed (a ++ p) ∧ ∀ q ∈ ps, WellFormed q := by
  induction cs generalizing a p ps with
  | nil =>
    cases hp
    exact ⟨h, by simp⟩
  | cons c cs ih =>
    by_cases hc : (top.scan a).separates c = true
    · obtain ⟨ha, rfl⟩ := Nesting.eq_top_of_separates hc
      rw [pieces_of_separates hc, ha] at hp
      obtain ⟨rfl, rfl⟩ := List.cons.inj hp
      obtain ⟨hwa, hwc⟩ := h.of_append ha
      have hw : WellFormed cs := (WellFormed.of_append (a := [',']) hwc rfl).2
      obtain ⟨r, rs, hr⟩ := List.exists_cons_of_ne_nil (pieces_ne_nil top cs)
      obtain ⟨h1, h2⟩ := ih (a := []) hw hr
      rw [List.append_nil, hr]
      exact ⟨hwa, List.forall_mem_cons.2 ⟨h1, h2⟩⟩
    · obtain ⟨r, rs, hr⟩ := List.exists_cons_of_ne_nil (pieces_ne_nil ((top.scan a).step c) cs)
      rw [pieces_of_not_separates hc hr] at hp
      obtain ⟨rfl, rfl⟩ := List.cons.inj hp
      have hstep : (top.scan a).step c = top.scan (a ++ [c]) := by rw [Nesting.scan_append]; rfl
      rw [hstep] at hr
      have := ih (a := a ++ [c]) (by simpa using h) hr
      simpa using this

theorem wellFormed_clauses {cs : List Char} (h : WellFormed cs) : ∀ c ∈ clauses cs, WellFormed c := by
  intro c hc
  obtain ⟨p, hp, rfl⟩ := List.mem_map.1 (List.mem_of_mem_filter hc)
  obtain ⟨r, rs, hr⟩ := List.exists_cons_of_ne_nil (pieces_ne_nil top cs)
  obtain ⟨h1, h2⟩ := wellFormed_pieces (a := []) h hr
  rw [hr] at hp
  exact (List.forall_mem_cons.2 ⟨h1, h2⟩ p hp).trim

/-! ### Separators by their places -/

/-- At the place stands a comma outside quotes, behind as many opening as closing parentheses. -/
def IsSeparator (cs : List Char) (j : ℕ) : Prop :=
  cs[j]? = some ',' ∧ openQuote none (cs.take j) = none ∧
    (unquoted none (cs.take j)).count '(' = (unquoted none (cs.take j)).count ')'

instance (cs : List Char) : DecidablePred (IsSeparator cs) :=
  fun _ => inferInstanceAs (Decidable (_ ∧ _ ∧ _))

/-- The places of the commas between clauses. -/
def separators (cs : List Char) : List ℕ := (List.range cs.length).filter (IsSeparator cs ·)

/-- What stands from one place up to another. -/
def slice (cs : List Char) (i j : ℕ) : List Char := (cs.take j).drop i

/-- What stands between the places, each of which is left out. -/
def cutAt (cs : List Char) (js : List ℕ) : List (List Char) :=
  List.zipWith (slice cs) (0 :: js.map (· + 1)) (js ++ [cs.length])

theorem zipWith_slice_succ (c : Char) (cs : List Char) (is js : List ℕ) :
    List.zipWith (slice (c :: cs)) (is.map (· + 1)) (js.map (· + 1)) =
      List.zipWith (slice cs) is js := by
  rw [List.zipWith_map]; rfl

theorem cutAt_zero (c : Char) (cs : List Char) (js : List ℕ) :
    cutAt (c :: cs) (0 :: js.map (· + 1)) = [] :: cutAt cs js := by
  have := zipWith_slice_succ c cs (0 :: js.map (· + 1)) (js ++ [cs.length])
  rw [List.map_append] at this
  exact congrArg ([] :: ·) this

theorem cutAt_succ (c : Char) {cs p : List Char} {js : List ℕ} {ps : List (List Char)}
    (h : cutAt cs js = p :: ps) : cutAt (c :: cs) (js.map (· + 1)) = (c :: p) :: ps := by
  cases js with
  | nil =>
    obtain ⟨rfl, rfl⟩ := List.cons.inj h
    simp [cutAt, slice]
  | cons j js =>
    obtain ⟨rfl, rfl⟩ := List.cons.inj h
    have := zipWith_slice_succ c cs ((j :: js).map (· + 1)) (js ++ [cs.length])
    rw [List.map_append] at this
    exact congrArg ((c :: slice cs 0 j) :: ·) this

/-- The places at which a text is cut when the nesting before it is `n`. -/
def separatorsFrom (n : Nesting) (cs : List Char) : List ℕ :=
  (List.range cs.length).filter fun j => cs[j]?.any (n.scan (cs.take j)).separates

theorem separatorsFrom_cons (n : Nesting) (c : Char) (cs : List Char) :
    separatorsFrom n (c :: cs) =
      (if n.separates c then [0] else []) ++ (separatorsFrom (n.step c) cs).map (· + 1) := by
  have hs : ((List.range cs.length).map Nat.succ).filter
      (fun j => (c :: cs)[j]?.any (n.scan ((c :: cs).take j)).separates) =
      (separatorsFrom (n.step c) cs).map (· + 1) := List.filter_map ..
  rw [separatorsFrom, List.length_cons, List.range_succ_eq_map, List.filter_cons, hs]
  show (if n.separates c = true then _ else _) = _
  split <;> rfl

theorem separatorsFrom_top (cs : List Char) : separatorsFrom top cs = separators cs := by
  refine List.filter_congr fun j _ => ?_
  rw [Bool.eq_iff_iff, decide_eq_true_iff, IsSeparator, Nesting.scan_top, surplus]
  simp only [Option.any_eq_true, Nesting.separates, Bool.and_eq_true, Option.isNone_iff_eq_none,
    beq_iff_eq]
  constructor
  · rintro ⟨c, hc, ⟨hq, rfl⟩, hd⟩
    exact ⟨hc, hq, by omega⟩
  · rintro ⟨hc, hq, hd⟩
    exact ⟨',', hc, ⟨hq, rfl⟩, by omega⟩

theorem pieces_eq_cutAt (n : Nesting) (cs : List Char) :
    pieces n cs = cutAt cs (separatorsFrom n cs) := by
  induction cs generalizing n with
  | nil => rfl
  | cons c cs ih =>
    rw [separatorsFrom_cons]
    by_cases hc : n.separates c = true
    · rw [pieces_of_separates hc, if_pos hc, Nesting.step_of_separates hc, ih]
      exact (cutAt_zero c cs _).symm
    · obtain ⟨p, ps, hp⟩ := List.exists_cons_of_ne_nil (pieces_ne_nil (n.step c) cs)
      rw [pieces_of_not_separates hc hp, if_neg hc, List.nil_append]
      exact (cutAt_succ c (by rw [← ih, hp])).symm

/-! ### The clauses of a statement -/

/-- The text between two places, without the characters there. -/
def between (cs : List Char) (i j : ℕ) : List Char := slice cs (i + 1) j

theorem drop_of_getElem? {cs : List Char} {i : ℕ} {c : Char} (h : cs[i]? = some c) :
    cs.drop i = c :: cs.drop (i + 1) := by
  obtain ⟨hi, rfl⟩ := List.getElem?_eq_some_iff.1 h
  exact List.drop_eq_getElem_cons hi

theorem closingIndex_natCast (cs : List Char) (o : ℕ) :
    closingIndex cs o =
      .ok (match closing? top (cs.drop o) with | some k => (o : ℤ) + k | none => -1) := by
  have hback : (-(o : ℤ)).toNat = 0 := by omega
  simp only [closingIndex, hback, Nat.not_lt_zero, if_false, Int.natCast_nonneg, if_true,
    Int.toNat_natCast]
  cases closing? top (cs.drop o) <;> rfl

/-- **The closing parenthesis** of an opening one ends the well-formed text between them. -/
theorem closingIndex_eq_ok {cs : List Char} {o i : ℕ} (ho : cs[o]? = some '(') :
    closingIndex cs o = .ok (i : ℤ) ↔
      o < i ∧ cs[i]? = some ')' ∧ WellFormed (between cs o i) := by
  have hopen : closing? top (cs.drop o) = (closing? ⟨1, none⟩ (cs.drop (o + 1))).map (· + 1) := by
    rw [drop_of_getElem? ho]; rfl
  have hbetween : between cs o i = (cs.drop (o + 1)).take (i - (o + 1)) := List.drop_take
  rw [closingIndex_natCast, hopen, hbetween]
  constructor
  · intro h
    cases hk : closing? ⟨1, none⟩ (cs.drop (o + 1)) with
    | none => rw [hk] at h; cases h
    | some k =>
      rw [hk] at h
      have hi : (o : ℤ) + (k + 1 : ℕ) = i := Except.ok.inj h
      obtain ⟨a, b, he, rfl, ha⟩ := closing?_body.1 hk
      have hlen : i - (o + 1) = a.length := by omega
      refine ⟨by omega, ?_, ?_⟩
      · have := congrArg (·[a.length]?) he
        simp only [List.getElem?_drop, List.getElem?_append_right le_rfl, Nat.sub_self,
          List.getElem?_cons_zero] at this
        rwa [show o + 1 + a.length = i by omega] at this
      · rwa [hlen, he, List.take_left]
  · rintro ⟨hlt, hi, hw⟩
    have hk : closing? ⟨1, none⟩ (cs.drop (o + 1)) = some (i - (o + 1)) := by
      refine closing?_body.2 ⟨_, cs.drop (i + 1), ?_, ?_, hw⟩
      · rw [← drop_of_getElem? hi, show cs.drop i = (cs.drop (o + 1)).drop (i - (o + 1)) by
          rw [List.drop_drop]; congr 1; omega, List.take_append_drop]
      · have := (List.getElem?_eq_some_iff.1 hi).1
        rw [List.length_take, List.length_drop]; omega
    rw [hk]
    show Except.ok ((o : ℤ) + (i - (o + 1) + 1 : ℕ)) = _
    rw [show (o : ℤ) + (i - (o + 1) + 1 : ℕ) = i by omega]

/-- **The clauses of a closed body** are well formed, and are the trimmed pieces between the commas that
stand outside quotes and parentheses, the empty ones left out. -/
theorem clauses_of_closingIndex {cs : List Char} {o i : ℕ} (ho : cs[o]? = some '(')
    (hi : closingIndex cs o = .ok i) :
    (∀ c ∈ clauses (between cs o i), WellFormed c) ∧
      clauses (between cs o i) =
        ((cutAt (between cs o i) (separators (between cs o i))).map Text.trim).filter
          (!·.isEmpty) := by
  obtain ⟨-, -, hw⟩ := (closingIndex_eq_ok ho).1 hi
  refine ⟨wellFormed_clauses hw, ?_⟩
  rw [clauses, pieces_eq_cutAt, separatorsFrom_top]

/-- A statement with a comma and a parenthesis in quotes, a comma in parentheses, and an empty piece. -/
def quotedBody : List Char := "t (a 'x,)', b \"it's\" (1, 2) , ) ;".toList

theorem clauses_of_closingIndex_quoted :
    (∀ c ∈ clauses (between quotedBody 2 30), WellFormed c) ∧
      separators (between quotedBody 2 30) = [7, 25] ∧
      clauses (between quotedBody 2 30) = ["a 'x,)'".toList, "b \"it's\" (1, 2)".toList] := by
  have ho : quotedBody[2]? = some '(' := by decide
  have hi : closingIndex quotedBody (2 : ℕ) = .ok (30 : ℕ) := by decide +kernel
  obtain ⟨hw, hc⟩ := clauses_of_closingIndex ho hi
  exact ⟨hw, by decide +kernel, hc.trans (by decide +kernel)⟩

end ErCanvas.Sql
