import ErCanvas.Proofs.Sql.Comment
import ErCanvas.Proofs.Text.Ascii
import ErCanvas.Sql.Script

/-! # Reading up to a semicolon

No part of a statement's header goes on over a semicolon. A reader is fenced by a text `t` when it reads
nothing of `t`: put behind any other text, `t` is handed on with the rest. All readers that a header is
made of are fenced by spaces with a semicolon behind them; where a reader is done after white space,
only together with what has to follow it.

* `Fence`, `Fenced`: the semicolon, and readers that stop before it.
* `headerHere?_fenced`: headers.
* `statements_append`: the statements of two scripts with a semicolon between them. -/

namespace ErCanvas.Sql

open Text (isBlank isWordChar)

/-! ### Where readers stop -/

/-- Among the ASCII characters only the two cases of a letter stand for it. -/
theorem sameLetter_ascii {c : Char} (hc : c.toNat < 128) (a : Char) :
    sameLetter a c = (c.toLower == a) := by
  have hne : ∀ d : Char, 128 ≤ d.toNat → c ≠ d := fun d => Text.ne_of_ascii hc
  have hv : letterVariants.contains (a, c) = false := by
    simp [letterVariants, hne 'ſ' (by decide), hne '\u212A' (by decide), hne 'İ' (by decide),
      hne 'ı' (by decide)]
  rw [sameLetter, hv, Bool.or_false]

/-- A letter without variants is written in its two cases only. -/
theorem sameLetter_of_not_variant {a : Char} (ha : a ∉ letterVariants.map Prod.fst) (c : Char) :
    sameLetter a c = (c.toLower == a) := by
  have hv : letterVariants.contains (a, c) = false := by
    rw [List.contains_eq_mem, decide_eq_false_iff_not]
    exact fun hm => ha (List.mem_map_of_mem hm)
  rw [sameLetter, hv, Bool.or_false]

theorem sameLetter_eq_false {a c : Char} (ha : a.isLower) (hc : c.toNat < 128)
    (hl : c.isAlpha = false) : sameLetter a c = false := by
  rw [sameLetter_ascii hc, beq_eq_false_iff_ne]
  rintro rfl
  rw [Text.isLower_toLower hc hl] at ha
  cases ha

/-- A keyword is made of lower case letters. -/
def IsKeyword (k : List Char) : Prop := k ≠ [] ∧ ∀ a ∈ k, a.isLower

instance (k : List Char) : Decidable (IsKeyword k) :=
  have : Decidable (∀ a ∈ k, a.isLower) := List.decidableBAll (·.isLower = true) k
  inferInstanceAs (Decidable (k ≠ [] ∧ ∀ a ∈ k, a.isLower))

namespace IsKeyword

variable {k : List Char} (hk : IsKeyword k)

include hk in
theorem sameLetter_space : ∀ a ∈ k, sameLetter a ' ' = false :=
  fun a ha => sameLetter_eq_false (hk.2 a ha) (by decide) (by decide)

include hk in
theorem sameLetter_semicolon : ∀ a ∈ k, sameLetter a ';' = false :=
  fun a ha => sameLetter_eq_false (hk.2 a ha) (by decide) (by decide)

end IsKeyword

theorem keyword?_append_cons {k : List Char} {c : Char} (hk : ∀ a ∈ k, sameLetter a c = false)
    (cs u : List Char) : keyword? k (cs ++ c :: u) = (keyword? k cs).map (· ++ c :: u) := by
  induction k generalizing cs with
  | nil => rfl
  | cons a k ih =>
    cases cs with
    | nil => simp [keyword?, hk a (.head _)]
    | cons d cs =>
      rw [List.cons_append, keyword?, keyword?]
      split
      · exact ih (fun b hb => hk b (.tail _ hb)) cs
      · rfl

theorem takeWhile_append_cons {α : Type} {p : α → Bool} {c : α} (hc : p c = false) (a b : List α) :
    (a ++ c :: b).takeWhile p = a.takeWhile p := by
  induction a with
  | nil => simp [hc]
  | cons d a ih =>
    rw [List.cons_append, List.takeWhile_cons, List.takeWhile_cons, ih]

theorem takeWhile_ne {c : Char} {a : List Char} (h : c ∉ a) : a.takeWhile (· != c) = a := by
  rw [List.takeWhile_eq_self_iff]
  intro d hd
  rw [bne_iff_ne]
  rintro rfl
  exact h hd

/-- The part before a character that is not in it. -/
theorem takeWhile_ne_append_cons {c : Char} {a : List Char} (h : c ∉ a) (b : List Char) :
    (a ++ c :: b).takeWhile (· != c) = a := by
  rw [takeWhile_append_cons (by simp), takeWhile_ne h]

theorem word?_append_cons {c : Char} (hc : isWordChar c = false) (cs u : List Char) :
    word? (cs ++ c :: u) = (word? cs).map (Prod.map id (· ++ c :: u)) := by
  simp only [word?, takeWhile_append_cons hc, Text.dropWhile_append_cons hc]
  split <;> rfl

theorem dropOne_append_cons {p : Char → Bool} {c : Char} (hc : p c = false) (cs u : List Char) :
    dropOne p (cs ++ c :: u) = dropOne p cs ++ c :: u := by
  cases cs with
  | nil => simp [dropOne, hc]
  | cons d cs =>
    rw [List.cons_append, dropOne, dropOne]
    split <;> rfl

theorem name?_append_cons {c : Char} (hc : isWordChar c = false) (hm : isNameMark c = false)
    (cs u : List Char) : name? (cs ++ c :: u) = (name? cs).map (Prod.map id (· ++ c :: u)) := by
  rw [isNameMark, Bool.or_eq_false_iff] at hm
  rw [name?, name?, dropOne_append_cons hm.1, word?_append_cons hc, Option.map_map, Option.map_map]
  congr 1
  funext ⟨w, rest⟩
  exact congrArg (Prod.mk w) (dropOne_append_cons hm.2 rest u)

/-! ### Fences -/

/-- The text is spaces and a semicolon with `r` behind. -/
def Fence (t r : List Char) : Prop := ∃ s, Spaces s ∧ t = s ++ ';' :: r

/-- The reader reads nothing of `t`; what it reads otherwise is extended with `t` by `g`. -/
def Fenced {β : Type} (t : List Char) (g : β → β) (f : List Char → Option β) : Prop :=
  ∀ cs, f (cs ++ t) = (f cs).map g

/-- The reader reads neither the empty text nor a semicolon. -/
def Fails {β : Type} (f : List Char → Option β) : Prop := f [] = none ∧ ∀ r, f (';' :: r) = none

section

variable {t r : List Char} {β : Type} {g : β → β}

theorem Fence.eq_cons (h : Fence t r) : ∃ c u, t = c :: u ∧ (c = ' ' ∨ c = ';') := by
  obtain ⟨s, hs, rfl⟩ := h
  cases s with
  | nil => exact ⟨_, _, rfl, .inr rfl⟩
  | cons c s => exact ⟨_, _, rfl, .inl (hs c (.head _))⟩

theorem Fence.skipBlanks (h : Fence t r) : skipBlanks t = ';' :: r := by
  obtain ⟨s, hs, rfl⟩ := h
  rw [Sql.skipBlanks, Text.dropWhile_blank fun c hc => by rw [hs c hc]; rfl]
  rfl

theorem skipBlanks_append (cs t : List Char) :
    skipBlanks (cs ++ t) = if skipBlanks cs = [] then skipBlanks t else skipBlanks cs ++ t := by
  rw [skipBlanks, List.dropWhile_append]
  simp only [List.isEmpty_iff]; rfl

/-- Behind white space a fenced reader that reads no semicolon is still fenced. -/
theorem Fenced.skipBlanks {f : List Char → Option β} (ht : Fence t r) (hf : Fenced t g f)
    (hn : Fails f) : Fenced t g fun cs => f (Sql.skipBlanks cs) := by
  intro cs
  show f (Sql.skipBlanks (cs ++ t)) = (f (Sql.skipBlanks cs)).map g
  rw [skipBlanks_append]
  split
  · rename_i h
    rw [ht.skipBlanks, h, hn.1, hn.2]; rfl
  · exact hf _

theorem Fenced.blanks? {f : List Char → Option β} (ht : Fence t r) (hf : Fenced t g f)
    (hn : Fails f) : Fenced t g fun cs => (Sql.blanks? cs).bind f := by
  intro cs
  cases cs with
  | nil =>
    show (Sql.blanks? t).bind f = none
    obtain ⟨c, u, rfl, hc⟩ := ht.eq_cons
    rcases hc with rfl | rfl
    · show f (Sql.skipBlanks u) = none
      have : Sql.skipBlanks u = ';' :: r := ht.skipBlanks
      rw [this, hn.2]
    · rfl
  | cons c cs =>
    simp only [List.cons_append, Sql.blanks?]
    split
    · exact hf.skipBlanks ht hn cs
    · rfl

theorem Fenced.bind {f : List Char → Option (List Char)} {h : List Char → Option β}
    (hf : Fenced t (· ++ t) f) (hh : Fenced t g h) : Fenced t g fun cs => (f cs).bind h := by
  intro cs
  show (f (cs ++ t)).bind h = ((f cs).bind h).map g
  rw [hf cs]
  cases f cs with
  | none => rfl
  | some rest => exact hh rest

theorem Fenced.or {f h : List Char → Option β} (hf : Fenced t g f) (hh : Fenced t g h) :
    Fenced t g fun cs => (f cs).or (h cs) := by
  intro cs
  show (f (cs ++ t)).or (h (cs ++ t)) = ((f cs).or (h cs)).map g
  rw [hf cs, hh cs]
  cases f cs <;> rfl

/-! ### The parts of a header -/

theorem keyword?_fenced (ht : Fence t r) {k : List Char} (hk : IsKeyword k) :
    Fenced t (· ++ t) (keyword? k) := by
  obtain ⟨c, u, rfl, hc⟩ := ht.eq_cons
  intro cs
  rcases hc with rfl | rfl
  · exact keyword?_append_cons hk.sameLetter_space cs u
  · exact keyword?_append_cons hk.sameLetter_semicolon cs u

theorem keyword?_fails {k : List Char} (hk : IsKeyword k) : Fails (keyword? k) := by
  obtain ⟨a, k, rfl⟩ := List.exists_cons_of_ne_nil hk.1
  refine ⟨rfl, fun r => ?_⟩
  simp [keyword?, hk.sameLetter_semicolon a (.head _)]

theorem mark?_fenced (ht : Fence t r) {m : Char} (hm : m ≠ ';') : Fenced t (· ++ t) (mark? m) := by
  intro cs
  rw [mark?, mark?, skipBlanks_append]
  cases skipBlanks cs with
  | nil =>
    rw [if_pos rfl, ht.skipBlanks]
    simp [hm.symm]
  | cons c rest =>
    show (if c = m then some (rest ++ t) else none) = (if c = m then some rest else none).map _
    split <;> rfl

theorem name?_fenced (ht : Fence t r) : Fenced t (Prod.map id (· ++ t)) name? := by
  obtain ⟨c, u, rfl, hc⟩ := ht.eq_cons
  intro cs
  rcases hc with rfl | rfl
  · exact name?_append_cons (by decide) (by decide) cs u
  · exact name?_append_cons (by decide) (by decide) cs u

theorem name?_fails : Fails name? :=
  ⟨rfl, fun r => by simp [name?, dropOne, isOpening, word?, isWordChar]⟩

/-- A qualified name is a name, or the last of the names that follow a point. -/
theorem qualifiedName?_eq (cs : List Char) :
    qualifiedName? cs = (name? cs).bind fun p =>
      ((mark? '.' p.2).bind fun after => qualifiedName? (skipBlanks after)).or (some p) := by
  rw [qualifiedName?]
  split
  · rename_i h; rw [h]; rfl
  · rename_i h
    rw [h]
    show _ = ((mark? '.' _).bind _).or _
    split
    · rename_i hm; rw [hm]; rfl
    · rename_i hm
      rw [hm]
      show _ = (qualifiedName? _).or _
      split
      · rename_i hq; rw [hq]; rfl
      · rename_i hq; rw [hq]; rfl

theorem qualifiedName?_fails : Fails qualifiedName? := by
  constructor
  · rw [qualifiedName?_eq, name?_fails.1]; rfl
  · intro r
    rw [qualifiedName?_eq, name?_fails.2]; rfl

/-- A qualified name goes on only by a point and a name. -/
theorem qualifiedName?_fenced_of (hname : Fenced t (Prod.map id (· ++ t)) name?)
    (hpoint : Fenced t (· ++ t) (mark? '.')) (ht : qualifiedName? (skipBlanks t) = none) :
    Fenced t (Prod.map id (· ++ t)) qualifiedName? := by
  intro cs
  induction hn : cs.length using Nat.strongRecOn generalizing cs with
  | ind n ih =>
    rw [qualifiedName?_eq, qualifiedName?_eq cs, hname cs]
    cases hcs : name? cs with
    | none => rfl
    | some p =>
      obtain ⟨w, rest⟩ := p
      show ((mark? '.' (rest ++ t)).bind fun after => qualifiedName? (skipBlanks after)).or
        (some (w, rest ++ t)) = _
      rw [hpoint rest]
      cases hm : mark? '.' rest with
      | none => simp [hm]
      | some after =>
        have hlen : (skipBlanks after).length < n := by
          have h1 := length_of_name? hcs
          have h2 := length_of_mark? hm
          have h3 := length_skipBlanks_le after
          omega
        have hq : qualifiedName? (skipBlanks (after ++ t)) =
            (qualifiedName? (skipBlanks after)).map (Prod.map id (· ++ t)) := by
          rw [skipBlanks_append]
          split
          · rename_i h
            rw [ht, h, qualifiedName?_fails.1]; rfl
          · exact ih _ hlen _ rfl
        show (qualifiedName? (skipBlanks (after ++ t))).or _ = _
        rw [hq]
        simp only [Option.bind_some, hm]
        cases qualifiedName? (skipBlanks after) <;> rfl

theorem qualifiedName?_fenced (ht : Fence t r) : Fenced t (Prod.map id (· ++ t)) qualifiedName? :=
  qualifiedName?_fenced_of (name?_fenced ht) (mark?_fenced ht (by decide))
    (by rw [ht.skipBlanks, qualifiedName?_fails.2])

/-! ### Headers -/

theorem tableName?_eq (cs : List Char) :
    tableName? cs = (qualifiedName? cs).bind fun p => (mark? '(' p.2).map (Prod.mk p.1) := by
  rw [tableName?]
  cases qualifiedName? cs <;> rfl

theorem tableName?_fenced (ht : Fence t r) : Fenced t (Prod.map id (· ++ t)) tableName? := by
  intro cs
  rw [tableName?_eq, tableName?_eq, qualifiedName?_fenced ht cs]
  cases qualifiedName? cs with
  | none => rfl
  | some p =>
    show (mark? '(' (p.2 ++ t)).map _ = ((mark? '(' p.2).map _).map _
    rw [mark?_fenced ht (by decide) p.2, Option.map_map, Option.map_map]; rfl

theorem tableName?_fails : Fails tableName? :=
  ⟨by rw [tableName?_eq, qualifiedName?_fails.1]; rfl,
    fun r => by rw [tableName?_eq, qualifiedName?_fails.2]; rfl⟩

/-- The name behind the first two words of a header, and the text behind the parenthesis. -/
def headerName? (cs : List Char) : Option (List Char × List Char) :=
  ((phrase? ["if".toList, "not".toList, "exists".toList] cs).bind fun rest =>
    (blanks? rest).bind tableName?).or (tableName? cs)

theorem headerHere?_eq (cs : List Char) :
    headerHere? cs = (phrase? ["create".toList, "table".toList] cs).bind fun rest =>
      (blanks? rest).bind headerName? := by
  rw [headerHere?, ← Option.bind_assoc]
  cases (phrase? ["create".toList, "table".toList] cs).bind blanks? with
  | none => rfl
  | some rest =>
    have hname : headerName? rest = ((unlessExists? rest).bind tableName?).or (tableName? rest) := by
      rw [headerName?, unlessExists?, Option.bind_assoc]
    rw [Option.bind_some, hname]
    dsimp only
    cases (unlessExists? rest).bind tableName? <;> rfl

theorem phrase?_cons (k k' : List Char) (ks : List (List Char)) (cs : List Char) :
    phrase? (k :: k' :: ks) cs =
      (keyword? k cs).bind fun rest => (blanks? rest).bind (phrase? (k' :: ks)) := by
  rw [phrase?, Option.bind_assoc]
  simp

section

variable {ks : List (List Char)}

theorem phrase?_fails (hne : ks ≠ []) (hk : ∀ k ∈ ks, IsKeyword k) : Fails (phrase? ks) := by
  obtain ⟨k, ks, rfl⟩ := List.exists_cons_of_ne_nil hne
  have hf := keyword?_fails (hk k (.head _))
  cases ks with
  | nil => exact hf
  | cons k' ks =>
    refine ⟨?_, fun r => ?_⟩
    · rw [phrase?_cons, hf.1]; rfl
    · rw [phrase?_cons, hf.2]; rfl

/-- A phrase is fenced where its keywords are, each also behind white space. -/
theorem phrase?_fenced_of (hkey : ∀ k ∈ ks, Fenced t (· ++ t) (keyword? k))
    (hblanks : ∀ us, us ≠ [] → us <:+ ks → Fenced t (· ++ t) (phrase? us) →
      Fenced t (· ++ t) fun cs => (blanks? cs).bind (phrase? us)) (hne : ks ≠ []) :
    Fenced t (· ++ t) (phrase? ks) := by
  induction ks with
  | nil => exact absurd rfl hne
  | cons k ks ih =>
    have hf := hkey k (.head _)
    cases ks with
    | nil => exact hf
    | cons k' ks =>
      have hrest : Fenced t (· ++ t) (phrase? (k' :: ks)) :=
        ih (fun k h => hkey k (.tail _ h))
          (fun us hus hsuf => hblanks us hus (hsuf.trans (List.suffix_cons _ _))) (by simp)
      intro cs
      rw [phrase?_cons, phrase?_cons]
      exact hf.bind (hblanks _ (by simp) (List.suffix_cons _ _) hrest) cs

theorem phrase?_fenced (ht : Fence t r) (hne : ks ≠ []) (hk : ∀ k ∈ ks, IsKeyword k) :
    Fenced t (· ++ t) (phrase? ks) :=
  phrase?_fenced_of (fun k h => keyword?_fenced ht (hk k h))
    (fun _ hne hsuf hf => hf.blanks? ht (phrase?_fails hne fun k h => hk k (hsuf.subset h))) hne

end

theorem headerName?_fenced (ht : Fence t r) : Fenced t (Prod.map id (· ++ t)) headerName? := by
  have h : Fenced t (· ++ t) (phrase? ["if".toList, "not".toList, "exists".toList]) :=
    phrase?_fenced ht (by simp) (by simp [IsKeyword])
  exact (h.bind ((tableName?_fenced ht).blanks? ht tableName?_fails)).or (tableName?_fenced ht)

theorem headerName?_fails : Fails headerName? := by
  have h : Fails (phrase? ["if".toList, "not".toList, "exists".toList]) :=
    phrase?_fails (by simp) (by simp [IsKeyword])
  refine ⟨?_, fun r => ?_⟩
  · rw [headerName?, h.1, tableName?_fails.1]; rfl
  · rw [headerName?, h.2, tableName?_fails.2]; rfl

/-- **A header ends before a semicolon.** -/
theorem headerHere?_fenced (ht : Fence t r) : Fenced t (Prod.map id (· ++ t)) headerHere? := by
  have h : Fenced t (· ++ t) (phrase? ["create".toList, "table".toList]) :=
    phrase?_fenced ht (by simp) (by simp [IsKeyword])
  intro cs
  rw [headerHere?_eq, headerHere?_eq]
  exact h.bind ((headerName?_fenced ht).blanks? ht headerName?_fails) cs

/-- A header does not begin with a character that is no letter. -/
theorem headerHere?_cons {c : Char} (hc : sameLetter 'c' c = false) (cs : List Char) :
    headerHere? (c :: cs) = none := by
  rw [headerHere?_eq, phrase?_cons]
  simp [keyword?, hc]

theorem header?_cons (c : Char) (cs : List Char) :
    header? (c :: cs) = (headerHere? (c :: cs)).or (header? cs) := by
  unfold header?
  rw [search?]
  cases headerHere? (c :: cs) <;> rfl

/-- White space in front of a script does not count. -/
theorem header?_spaces_append {s : List Char} (hs : Spaces s) (cs : List Char) :
    header? (s ++ cs) = header? cs := by
  induction s with
  | nil => rfl
  | cons c s ih =>
    rw [hs c (.head _), List.cons_append, header?_cons, headerHere?_cons (by decide)]
    exact ih fun d hd => hs d (.tail _ hd)

theorem header?_fence (ht : Fence t r) : header? t = header? r := by
  obtain ⟨s, hs, rfl⟩ := ht
  rw [header?_spaces_append hs, header?_cons, headerHere?_cons (by decide)]; rfl

/-- The first header before a semicolon, or else the first behind it. -/
theorem header?_append (ht : Fence t r) (cs : List Char) :
    header? (cs ++ t) = ((header? cs).map (Prod.map id (· ++ t))).or (header? r) := by
  induction cs with
  | nil => exact header?_fence ht
  | cons c cs ih =>
    have hh : headerHere? (c :: (cs ++ t)) = (headerHere? (c :: cs)).map (Prod.map id (· ++ t)) :=
      headerHere?_fenced ht (c :: cs)
    rw [List.cons_append, header?_cons, header?_cons, hh]
    cases headerHere? (c :: cs) with
    | none => exact ih
    | some p => rfl

end

/-! ### Statements -/

/-- The statement has its closing parenthesis. -/
def Statement.Closed : Statement → Prop
  | closed .. => True
  | unclosed _ => False

instance : DecidablePred Statement.Closed
  | .closed .. => .isTrue trivial
  | .unclosed _ => .isFalse id

section

variable {cs name rest : List Char}

theorem statements_of_none (h : header? cs = none) : statements cs = [] := by
  rw [statements]
  split
  · rfl
  · rename_i h'; rw [h] at h'; cases h'

theorem statements_unclosed (h : header? cs = some (name, rest))
    (hi : closing? ⟨1, none⟩ rest = none) : statements cs = .unclosed name :: statements rest := by
  rw [statements]
  split
  · rename_i h'; rw [h] at h'; cases h'
  · rename_i h'
    rw [h] at h'
    cases h'
    rw [hi]

theorem statements_closed {i : ℕ} (h : header? cs = some (name, rest))
    (hi : closing? ⟨1, none⟩ rest = some i) :
    statements cs = .closed name (rest.take i) :: statements (rest.drop (i + 1)) := by
  rw [statements]
  split
  · rename_i h'; rw [h] at h'; cases h'
  · rename_i h'
    rw [h] at h'
    cases h'
    rw [hi]

end

theorem closing?_append {n : Nesting} {cs : List Char} {i : ℕ} (h : closing? n cs = some i)
    (t : List Char) : i < cs.length ∧ closing? n (cs ++ t) = some i := by
  induction cs generalizing n i with
  | nil => cases h
  | cons c cs ih =>
    rw [closing?] at h
    rw [List.cons_append, closing?]
    split at h
    · rename_i hc
      cases h
      rw [if_pos hc]
      exact ⟨Nat.succ_pos _, rfl⟩
    · rename_i hc
      obtain ⟨j, hj, rfl⟩ := Option.map_eq_some_iff.1 h
      obtain ⟨h1, h2⟩ := ih hj
      rw [if_neg hc, h2]
      exact ⟨Nat.succ_lt_succ h1, rfl⟩

/-- Statements depend on the first header alone. -/
theorem statements_congr {cs ds : List Char} (h : header? cs = header? ds) :
    statements cs = statements ds := by
  cases hh : header? ds with
  | none => rw [statements_of_none hh, statements_of_none (h.trans hh)]
  | some p =>
    cases hi : closing? ⟨1, none⟩ p.2 with
    | none => rw [statements_unclosed hh hi, statements_unclosed (h.trans hh) hi]
    | some i => rw [statements_closed hh hi, statements_closed (h.trans hh) hi]

theorem statements_spaces_append {s : List Char} (hs : Spaces s) (cs : List Char) :
    statements (s ++ cs) = statements cs :=
  statements_congr (header?_spaces_append hs cs)

/-- **The statements of two scripts** with a semicolon between them, those of the first closed. -/
theorem statements_append {t r : List Char} (ht : Fence t r) {cs : List Char}
    (hc : ∀ s ∈ statements cs, s.Closed) : statements (cs ++ t) = statements cs ++ statements r := by
  induction hn : cs.length using Nat.strongRecOn generalizing cs with
  | ind n ih =>
    cases hh : header? cs with
    | none =>
      rw [statements_of_none hh, List.nil_append]
      exact statements_congr (by rw [header?_append ht, hh]; rfl)
    | some p =>
      obtain ⟨name, rest⟩ := p
      have hh' : header? (cs ++ t) = some (name, rest ++ t) := by rw [header?_append ht, hh]; rfl
      cases hi : closing? ⟨1, none⟩ rest with
      | none =>
        rw [statements_unclosed hh hi] at hc
        exact (hc _ (.head _)).elim
      | some i =>
        rw [statements_closed hh hi] at hc ⊢
        obtain ⟨hlt, hi'⟩ := closing?_append hi t
        have hlen : (rest.drop (i + 1)).length < n := by
          have := length_of_header? hh
          rw [List.length_drop]; omega
        have := ih _ hlen (fun s hs => hc s (.tail _ hs)) rfl
        rw [statements_closed hh' hi', List.take_append_of_le_length hlt.le,
          List.drop_append_of_le_length hlt, this]
        rfl

end ErCanvas.Sql
