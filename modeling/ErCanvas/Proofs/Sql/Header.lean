import ErCanvas.Proofs.Sql.Nesting
import ErCanvas.Proofs.Sql.Stop

/-! # Headers end at a parenthesis

A header goes up to the first parenthesis behind its start, and does not depend on what stands behind that
parenthesis. So two headers that overlap end at the same parenthesis, and a header that is found in a text
is found however the text goes on.

* `EndsAtOpen`: readers that end at the first parenthesis.
* `exists_of_header?`: the first header of a text, and what any other header has to do with it.
* `statements_body`: a header with a body behind it. -/

namespace ErCanvas.Sql

open Text (isBlank isWordChar)

/-! ### Readers hand on an end of the text -/

section

variable {cs rest w : List Char}

theorem keyword?_suffix {k : List Char} (h : keyword? k cs = some rest) : rest <:+ cs := by
  induction k generalizing cs with
  | nil =>
    cases h
    exact List.suffix_rfl
  | cons a k ih =>
    cases cs with
    | nil => cases h
    | cons c cs =>
      rw [keyword?] at h
      split at h
      · exact (ih h).trans (List.suffix_cons c cs)
      · cases h

theorem skipBlanks_suffix (cs : List Char) : skipBlanks cs <:+ cs := List.dropWhile_suffix _

theorem blanks?_suffix (h : blanks? cs = some rest) : rest <:+ cs := by
  cases cs with
  | nil => cases h
  | cons c cs =>
    rw [blanks?] at h
    split at h
    · cases h
      exact (skipBlanks_suffix cs).trans (List.suffix_cons c cs)
    · cases h

theorem phrase?_suffix {ks : List (List Char)} (h : phrase? ks cs = some rest) : rest <:+ cs := by
  induction ks generalizing cs with
  | nil =>
    cases h
    exact List.suffix_rfl
  | cons k ks ih =>
    cases ks with
    | nil => exact keyword?_suffix h
    | cons k' ks =>
      rw [phrase?_cons] at h
      obtain ⟨a, ha, h⟩ := Option.bind_eq_some_iff.1 h
      obtain ⟨b, hb, h⟩ := Option.bind_eq_some_iff.1 h
      exact ((ih h).trans (blanks?_suffix hb)).trans (keyword?_suffix ha)

theorem mark?_eq_some {m : Char} : mark? m cs = some rest ↔ skipBlanks cs = m :: rest := by
  rw [mark?]
  cases skipBlanks cs with
  | nil => simp
  | cons c r =>
    show (if c = m then some r else none) = some rest ↔ c :: r = m :: rest
    split <;> simp_all

theorem mark?_suffix {m : Char} (h : mark? m cs = some rest) : rest <:+ cs := by
  have hs := skipBlanks_suffix cs
  rw [mark?_eq_some.1 h] at hs
  exact (List.suffix_cons m rest).trans hs

theorem dropOne_suffix (p : Char → Bool) (cs : List Char) : dropOne p cs <:+ cs := by
  cases cs with
  | nil => exact List.suffix_rfl
  | cons c cs =>
    rw [dropOne]
    split
    · exact List.suffix_cons c cs
    · exact List.suffix_rfl

theorem name?_suffix (h : name? cs = some (w, rest)) : rest <:+ cs := by
  obtain ⟨⟨v, r⟩, hv, h⟩ := Option.map_eq_some_iff.1 h
  cases h
  have hr : r <:+ dropOne isOpening cs := by
    rw [word?] at hv
    split at hv
    · cases hv
    · cases hv
      exact List.dropWhile_suffix _
  exact ((dropOne_suffix isClosing r).trans hr).trans (dropOne_suffix isOpening cs)

theorem qualifiedName?_suffix (h : qualifiedName? cs = some (w, rest)) : rest <:+ cs := by
  fun_induction qualifiedName? cs with
  | case1 => cases h
  | case2 cs v r hn _ => cases h; exact name?_suffix hn
  | case3 cs v r hn after hm last hq ih =>
    cases h
    exact (((ih hq).trans (skipBlanks_suffix after)).trans (mark?_suffix hm)).trans (name?_suffix hn)
  | case4 cs v r hn after hm hq ih => cases h; exact name?_suffix hn

end

/-! ### The parenthesis of a header -/

/-- The reader needs a parenthesis, goes up to the first one, and hands on what stands behind it. -/
structure EndsAtOpen {β : Type} (f : List Char → Option (β × List Char)) : Prop where
  eq_none : ∀ x, '(' ∉ x → f x = none
  exists_eq : ∀ x, '(' ∉ x → ∃ o : Option β, ∀ u, f (x ++ '(' :: u) = o.map fun a => (a, u)

section

variable {β : Type} {g h : List Char → Option (β × List Char)}

theorem EndsAtOpen.bind {f : List Char → Option (List Char)} (hg : EndsAtOpen g)
    (hf : ∀ u, Fenced ('(' :: u) (· ++ '(' :: u) f) (hs : ∀ cs r, f cs = some r → r <:+ cs) :
    EndsAtOpen fun cs => (f cs).bind g := by
  constructor
  · intro x hx
    show (f x).bind g = none
    cases hr : f x with
    | none => rfl
    | some r => exact hg.eq_none r fun hm => hx ((hs x r hr).subset hm)
  · intro x hx
    cases hr : f x with
    | none =>
      refine ⟨none, fun u => ?_⟩
      show (f (x ++ '(' :: u)).bind g = none
      rw [hf u x, hr]; rfl
    | some r =>
      obtain ⟨o, ho⟩ := hg.exists_eq r fun hm => hx ((hs x r hr).subset hm)
      refine ⟨o, fun u => ?_⟩
      show (f (x ++ '(' :: u)).bind g = _
      rw [hf u x, hr]
      exact ho u

theorem EndsAtOpen.or (hg : EndsAtOpen g) (hh : EndsAtOpen h) :
    EndsAtOpen fun cs => (g cs).or (h cs) := by
  constructor
  · intro x hx
    show (g x).or (h x) = none
    rw [hg.eq_none x hx, hh.eq_none x hx]; rfl
  · intro x hx
    obtain ⟨o, ho⟩ := hg.exists_eq x hx
    obtain ⟨o', ho'⟩ := hh.exists_eq x hx
    refine ⟨o.or o', fun u => ?_⟩
    show (g (x ++ '(' :: u)).or (h (x ++ '(' :: u)) = _
    rw [ho u, ho' u]
    cases o <;> rfl

end

theorem tableName?_endsAtOpen : EndsAtOpen tableName? := by
  constructor
  · intro x hx
    rw [tableName?_eq]
    cases hq : qualifiedName? x with
    | none => rfl
    | some p =>
      have hm : mark? '(' p.2 = none := by
        rw [Option.eq_none_iff_forall_ne_some]
        intro r hr
        have hs := (skipBlanks_suffix p.2).trans (qualifiedName?_suffix hq)
        rw [mark?_eq_some.1 hr] at hs
        exact hx (hs.subset (.head _))
      simp [hm]
  · intro x hx
    have hfenced := fun u => stop_open.qualifiedName?_fenced u (by decide)
    cases hq : qualifiedName? x with
    | none =>
      refine ⟨none, fun u => ?_⟩
      rw [tableName?_eq, hfenced u x, hq]; rfl
    | some p =>
      have hmark : ∀ u, mark? '(' (p.2 ++ '(' :: u) =
          if skipBlanks p.2 = [] then some u else none := by
        intro u
        rw [mark?, stop_open.skipBlanks_append]
        cases hs : skipBlanks p.2 with
        | nil => rfl
        | cons d r =>
          have hd : d ≠ '(' := by
            rintro rfl
            have hsuf := (skipBlanks_suffix p.2).trans (qualifiedName?_suffix hq)
            rw [hs] at hsuf
            exact hx (hsuf.subset (.head _))
          exact (if_neg hd).trans (if_neg (List.cons_ne_nil d r)).symm
      refine ⟨if skipBlanks p.2 = [] then some p.1 else none, fun u => ?_⟩
      rw [tableName?_eq, hfenced u x, hq]
      show (mark? '(' (p.2 ++ '(' :: u)).map _ = _
      rw [hmark u]
      split <;> rfl

theorem headerName?_endsAtOpen : EndsAtOpen headerName? := by
  have hphrase : ∀ u, Fenced ('(' :: u) (· ++ '(' :: u)
      (phrase? ["if".toList, "not".toList, "exists".toList]) :=
    fun u => stop_open.phrase?_fenced u (by simp [IsKeyword]) (by simp)
  have hblanks := tableName?_endsAtOpen.bind stop_open.blanks?_fenced fun _ _ => blanks?_suffix
  exact (hblanks.bind hphrase fun _ _ => phrase?_suffix).or tableName?_endsAtOpen

/-- **A header ends at the first parenthesis.** -/
theorem headerHere?_endsAtOpen : EndsAtOpen headerHere? := by
  have hphrase : ∀ u, Fenced ('(' :: u) (· ++ '(' :: u) (phrase? ["create".toList, "table".toList]) :=
    fun u => stop_open.phrase?_fenced u (by simp [IsKeyword]) (by simp)
  have hblanks := headerName?_endsAtOpen.bind stop_open.blanks?_fenced fun _ _ => blanks?_suffix
  rw [funext headerHere?_eq]
  exact hblanks.bind hphrase fun _ _ => phrase?_suffix

theorem exists_of_headerHere? {cs name rest : List Char} (h : headerHere? cs = some (name, rest)) :
    ∃ x, cs = x ++ '(' :: rest ∧ '(' ∉ x := by
  by_cases hm : '(' ∈ cs
  · obtain ⟨x, u, rfl, hx⟩ := List.eq_append_cons_of_mem hm
    obtain ⟨o, ho⟩ := headerHere?_endsAtOpen.exists_eq x hx
    rw [ho u] at h
    obtain ⟨n, -, h⟩ := Option.map_eq_some_iff.1 h
    cases h
    exact ⟨x, rfl, hx⟩
  · rw [headerHere?_endsAtOpen.eq_none cs hm] at h
    cases h

/-! ### The first header -/

section

variable {α : Type} {f : List Char → Option α} {cs : List Char}

theorem search?_eq_none_iff : search? f cs = none ↔ ∀ ds, ds <:+ cs → f ds = none := by
  induction cs with
  | nil => simp [search?]
  | cons c cs ih =>
    rw [search?]
    cases hf : f (c :: cs) with
    | some a =>
      simp only [reduceCtorEq, false_iff]
      intro h
      rw [h _ List.suffix_rfl] at hf
      cases hf
    | none =>
      show search? f cs = none ↔ _
      rw [ih]
      constructor
      · intro h ds hds
        rcases List.suffix_cons_iff.1 hds with rfl | hds
        · exact hf
        · exact h ds hds
      · exact fun h ds hds => h ds (hds.trans (List.suffix_cons c cs))

/-- What is found is found where nothing is found before. -/
theorem exists_of_search? {a : α} (h : search? f cs = some a) :
    ∃ ds, ds <:+ cs ∧ f ds = some a ∧ ∀ es, es <:+ cs → f es ≠ none → es <:+ ds := by
  induction cs with
  | nil => exact ⟨[], List.suffix_rfl, h, fun es hes _ => hes⟩
  | cons c cs ih =>
    rw [search?] at h
    cases hf : f (c :: cs) with
    | some b =>
      rw [hf] at h
      cases h
      exact ⟨c :: cs, List.suffix_rfl, hf, fun es hes _ => hes⟩
    | none =>
      rw [hf] at h
      obtain ⟨ds, hds, hfd, hmin⟩ := ih h
      refine ⟨ds, hds.trans (List.suffix_cons c cs), hfd, fun es hes hfe => ?_⟩
      rcases List.suffix_cons_iff.1 hes with rfl | hes
      · exact absurd hf hfe
      · exact hmin es hes hfe

end

theorem suffix_append_cons {c : Char} {x u ds : List Char} (h : ds <:+ x ++ c :: u) :
    ds <:+ u ∨ ∃ y, y <:+ x ∧ ds = y ++ c :: u := by
  obtain ⟨v, hv⟩ := h
  rcases List.append_eq_append_iff.1 hv with ⟨y, rfl, rfl⟩ | ⟨y, rfl, hy⟩
  · exact .inr ⟨y, List.suffix_append v y, rfl⟩
  · cases y with
    | nil => exact .inr ⟨[], List.nil_suffix, hy.symm⟩
    | cons d y =>
      obtain ⟨rfl, rfl⟩ := List.cons.inj hy
      exact .inl (List.suffix_append y ds)

/-- What stands on both sides of the first `c` of a text. -/
theorem append_cons_inj {c : Char} {x y u v : List Char} (hx : c ∉ x) (hy : c ∉ y)
    (h : x ++ c :: u = y ++ c :: v) : x = y ∧ u = v := by
  have hxy := congrArg (List.takeWhile (· != c)) h
  rw [takeWhile_ne_append_cons hx, takeWhile_ne_append_cons hy] at hxy
  subst hxy
  exact ⟨rfl, (List.cons.inj (List.append_cancel_left h)).2⟩

/-- **The first header** of a text. Every other one starts behind its parenthesis, or ends with it. -/
theorem exists_of_header? {cs name rest : List Char} (h : header? cs = some (name, rest)) :
    ∃ a x, cs = a ++ (x ++ '(' :: rest) ∧ '(' ∉ x ∧
      headerHere? (x ++ '(' :: rest) = some (name, rest) ∧
      ∀ ds name' rest', ds <:+ cs → headerHere? ds = some (name', rest') →
        rest' = rest ∨ ds <:+ rest := by
  obtain ⟨ds, ⟨a, rfl⟩, hds, hmin⟩ := exists_of_search? h
  obtain ⟨x, rfl, hx⟩ := exists_of_headerHere? hds
  refine ⟨a, x, rfl, hx, hds, fun es name' rest' hes hf => ?_⟩
  rcases suffix_append_cons (hmin es hes (by rw [hf]; simp)) with hes | ⟨y, hy, rfl⟩
  · exact .inr hes
  · obtain ⟨z, he, hz⟩ := exists_of_headerHere? hf
    have hy : '(' ∉ y := fun hm => hx (hy.subset hm)
    exact .inl (append_cons_inj hy hz he).2.symm

/-! ### Headers of a text that goes on -/

/-- Reading goes from parenthesis to parenthesis: the text before the first one has a header or not. -/
theorem exists_header?_eq {x : List Char} (hx : '(' ∉ x) :
    ∃ o : Option (List Char), ∀ u,
      header? (x ++ '(' :: u) = (o.map fun name => (name, u)).or (header? u) := by
  induction x with
  | nil =>
    refine ⟨none, fun u => ?_⟩
    rw [List.nil_append, header?_cons, headerHere?_cons (by decide)]; rfl
  | cons c x ih =>
    obtain ⟨o, ho⟩ := headerHere?_endsAtOpen.exists_eq (c :: x) hx
    obtain ⟨o', ho'⟩ := ih fun hm => hx (.tail _ hm)
    refine ⟨o.or o', fun u => ?_⟩
    have hhere := ho u
    rw [List.cons_append] at hhere ⊢
    rw [header?_cons, hhere, ho' u]
    cases o <;> rfl

/-- **A header is found** however the text goes on. -/
theorem header?_append_of_some {p p' t name : List Char}
    (h : header? (p ++ t) = some (name, p' ++ t)) (t' : List Char) :
    header? (p ++ t') = some (name, p' ++ t') := by
  induction hn : p.length using Nat.strongRecOn generalizing p with
  | ind n ih =>
    have hm : '(' ∈ p := by
      obtain ⟨a, x, he, -⟩ := exists_of_header? h
      have he : p ++ t = (a ++ (x ++ '(' :: p')) ++ t := by simpa using he
      rw [List.append_cancel_right he]
      simp
    obtain ⟨x, y, rfl, hx⟩ := List.eq_append_cons_of_mem hm
    obtain ⟨o, ho⟩ := exists_header?_eq hx
    rw [List.append_assoc, List.cons_append, ho] at h ⊢
    cases o with
    | some name' =>
      obtain ⟨rfl, hy⟩ := Prod.mk.inj (Option.some.inj h)
      rw [List.append_cancel_right hy]
      rfl
    | none =>
      refine ih y.length ?_ h rfl
      rw [← hn, List.length_append, List.length_cons]
      omega

/-- A header with the body of a statement behind it: the statement is closed, and reading goes on behind
its closing parenthesis. -/
theorem statements_body {cs name body after : List Char}
    (h : header? cs = some (name, body ++ ')' :: after)) (hw : WellFormed body) :
    statements cs = .closed name body :: statements after := by
  have hi : closing? ⟨1, none⟩ (body ++ ')' :: after) = some body.length :=
    closing?_body.2 ⟨body, after, rfl, rfl, hw⟩
  have hafter : (body ++ ')' :: after).drop (body.length + 1) = after := List.drop_length_add_append 1
  rw [statements_closed h hi, List.take_left, hafter]

end ErCanvas.Sql
