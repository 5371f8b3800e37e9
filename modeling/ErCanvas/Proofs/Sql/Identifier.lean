import ErCanvas.Proofs.Sql.Sentence

/-! # Identifiers

A name may be written between marks: backticks, double quotes or brackets. Names are read without their
marks, one by one and in the lists of key clauses.

* `Identifier`: a word, bare or between marks.
* `names_listed`: the names of a list.
* `Draft.keyNames?_append`, `Draft.foreignKey_append`: what is read of key clauses. -/

namespace ErCanvas.Sql

open Text (isBlank isPlain)

/-- A word that may stand between marks. -/
structure Identifier extends Word where
  opening : Option Char
  closing : Option Char
  isOpening_opening : ∀ c ∈ opening, isOpening c
  isClosing_closing : ∀ c ∈ closing, isClosing c

theorem forall_mem_none (p : Char → Bool) : ∀ c ∈ (none : Option Char), p c := nofun

/-- The word without marks. -/
def Word.bare (w : Word) : Identifier :=
  ⟨w, none, none, forall_mem_none isOpening, forall_mem_none isClosing⟩

namespace Identifier

variable (n : Identifier)

/-- The identifier as it is written. -/
def written : List Char := n.opening.toList ++ (n.text ++ n.closing.toList)

/-- The name that it stands for. -/
def name : String := String.ofList n.text

theorem ne_nil_written : n.written ≠ [] := by simp [written, n.ne_nil]

theorem isNameMark_opening : ∀ c ∈ n.opening.toList, isNameMark c := by
  intro c hc
  rw [isNameMark, n.isOpening_opening c (Option.mem_toList.1 hc)]
  rfl

theorem isNameMark_closing : ∀ c ∈ n.closing.toList, isNameMark c := by
  intro c hc
  rw [isNameMark, n.isClosing_closing c (Option.mem_toList.1 hc), Bool.or_true]

theorem of_mem_written {c : Char} (h : c ∈ n.written) : isNameMark c ∨ isPlain c := by
  rcases List.mem_append.1 h with h | h
  · exact .inl (n.isNameMark_opening c h)
  · rcases List.mem_append.1 h with h | h
    · exact .inr (n.plain c h)
    · exact .inl (n.isNameMark_closing c h)

theorem not_mem_written {c : Char} (hm : isNameMark c = false) (hp : isPlain c = false) :
    c ∉ n.written := by
  intro h
  rcases n.of_mem_written h with h | h
  · rw [hm] at h
    cases h
  · rw [hp] at h
    cases h

theorem isBlank_of_mem_written : ∀ c ∈ n.written, isBlank c = false := by
  intro c hc
  rcases n.of_mem_written hc with h | h
  · have hc : c = '\x60' ∨ c = '"' ∨ c = '[' ∨ c = ']' := by
      simp only [isNameMark, isOpening, isClosing, Bool.or_eq_true, beq_iff_eq] at h
      tauto
    rcases hc with rfl | rfl | rfl | rfl <;> decide
  · exact Text.isBlank_of_isPlain h

/-! ### Reading an identifier -/

variable {rest : List Char}

theorem name?_append (h : Ends rest) : name? (n.written ++ rest) = some (n.text, rest) := by
  have hname := name?_marked n.isOpening_opening n.isClosing_closing n.ne_nil
    (fun c hc => Text.isWordChar_of_isPlain (n.plain c hc)) h
  rwa [← List.append_assoc n.text, ← List.append_assoc n.opening.toList] at hname

theorem qualifiedName?_append (h : Ends rest) (hp : mark? '.' rest = none) :
    qualifiedName? (n.written ++ rest) = some (n.text, rest) := by
  rw [qualifiedName?_eq, n.name?_append h, Option.bind_some, hp]
  rfl

theorem skipBlanks_append : skipBlanks (n.written ++ rest) = n.written ++ rest := by
  obtain ⟨c, cs, hcs⟩ := List.exists_cons_of_ne_nil n.ne_nil_written
  have hc := n.isBlank_of_mem_written c (hcs ▸ .head _)
  rw [hcs, List.cons_append, skipBlanks, List.dropWhile_cons_of_neg (by simp [hc])]

/-- Of a name and the one that qualifies it, the last one counts. -/
theorem qualifiedName?_point (s : Identifier) (h : Ends rest) (hp : mark? '.' rest = none) :
    qualifiedName? (s.written ++ '.' :: (n.written ++ rest)) = some (n.text, rest) := by
  have hends : Ends ('.' :: (n.written ++ rest)) := by
    rintro c ⟨⟩
    decide
  have hmark : mark? '.' ('.' :: (n.written ++ rest)) = some (n.written ++ rest) := rfl
  rw [qualifiedName?_eq, s.name?_append hends, Option.bind_some, hmark, Option.bind_some,
    n.skipBlanks_append, n.qualifiedName?_append h hp]
  rfl

end Identifier

theorem Word.written_bare (w : Word) : w.bare.written = w.text := List.append_nil w.text

/-! ### Lists of names -/

section

variable {a b : List Char}

theorem splitCommas_append_comma (ha : ',' ∉ a) :
    splitCommas (a ++ ',' :: b) = a :: splitCommas b := by
  induction a with
  | nil => rfl
  | cons c a ih =>
    have hc : c ≠ ',' := Ne.symm (List.ne_of_not_mem_cons ha)
    rw [List.cons_append, splitCommas, if_neg hc, ih (List.not_mem_of_not_mem_cons ha)]

theorem splitCommas_of_not_mem (ha : ',' ∉ a) : splitCommas a = [a] := by
  induction a with
  | nil => rfl
  | cons c a ih =>
    have hc : c ≠ ',' := Ne.symm (List.ne_of_not_mem_cons ha)
    rw [splitCommas, if_neg hc, ih (List.not_mem_of_not_mem_cons ha)]

theorem splitCommas_ne_nil (cs : List Char) : splitCommas cs ≠ [] := by
  cases cs with
  | nil => simp [splitCommas]
  | cons c cs =>
    rw [splitCommas]
    split
    · simp
    · split <;> simp

theorem names_append_comma (ha : ',' ∉ a) : names (a ++ ',' :: b) = names a ++ names b := by
  rw [names, splitCommas_append_comma ha, ← List.singleton_append, List.map_append,
    List.filter_append, List.map_append, names, splitCommas_of_not_mem ha]
  rfl

theorem names_space_cons (cs : List Char) : names (' ' :: cs) = names cs := by
  obtain ⟨p, ps, h⟩ := List.exists_cons_of_ne_nil (splitCommas_ne_nil cs)
  have h' : splitCommas (' ' :: cs) = (' ' :: p) :: ps := by
    rw [splitCommas, if_neg (by decide), h]
  have htrim : Text.trim (' ' :: p) = Text.trim p := Text.trim_blank_append blank_space p
  rw [names, names, h, h', List.map_cons, List.map_cons, htrim]

/-- The names of a list are those of its parts. -/
theorem names_listed_eq_flatMap {ts : List (List Char)} (h : ∀ t ∈ ts, ',' ∉ t) :
    names (listed ts) = ts.flatMap names := by
  induction ts with
  | nil => rfl
  | cons t ts ih =>
    obtain ⟨ht, hts⟩ := List.forall_mem_cons.1 h
    cases ts with
    | nil => rw [listed_singleton, List.flatMap_singleton]
    | cons u ts =>
      rw [listed_cons_cons, names_append_comma ht, names_space_cons, ih hts]
      rfl

theorem names_written (n : Identifier) : names n.written = [n.text] := by
  have htrim : Text.trim n.written = n.written := Text.dropWhileBoth_eq_self n.isBlank_of_mem_written
  have hmarks : Text.dropWhileBoth isNameMark n.written = n.text :=
    Text.dropWhileBoth_append n.isNameMark_opening (fun c hc => isNameMark_of_isPlain (n.plain c hc))
      n.isNameMark_closing
  have hne : n.written.isEmpty = false := by simpa using n.ne_nil_written
  rw [names, splitCommas_of_not_mem (n.not_mem_written rfl (by decide)), List.map_singleton, htrim,
    List.filter_cons_of_pos (by simp [hne]), List.filter_nil, List.map_singleton, hmarks]

/-- **The identifiers of a list** are read without their marks. -/
theorem names_listed (ns : List Identifier) :
    names (listed (ns.map Identifier.written)) = ns.map (·.text) := by
  have hcomma : ∀ t ∈ ns.map Identifier.written, ',' ∉ t := by
    intro t ht
    obtain ⟨n, -, rfl⟩ := List.mem_map.1 ht
    exact n.not_mem_written rfl (by decide)
  rw [names_listed_eq_flatMap hcomma, List.flatMap_map, ← List.flatMap_singleton' (ns.map (·.text)),
    List.flatMap_map]
  exact List.flatMap_congr fun n _ => names_written n

theorem listed_written_ne_nil {ns : List Identifier} (h : ns ≠ []) :
    listed (ns.map Identifier.written) ≠ [] := by
  obtain ⟨n, ns, rfl⟩ := List.exists_cons_of_ne_nil h
  obtain ⟨r, hr⟩ := exists_listed_cons n.written (ns.map Identifier.written)
  rw [List.map_cons, hr]
  exact List.append_ne_nil_of_left_ne_nil n.ne_nil_written r

theorem close_not_mem_listed (ns : List Identifier) : ')' ∉ listed (ns.map Identifier.written) := by
  refine not_mem_listed (by decide) fun t ht => ?_
  obtain ⟨n, -, rfl⟩ := List.mem_map.1 ht
  exact n.not_mem_written rfl (by decide)

end

theorem group?_eq {cs inside rest : List Char} (hm : mark? '(' cs = some (inside ++ ')' :: rest))
    (hne : inside ≠ []) (hc : ')' ∉ inside) : group? cs = some (inside, rest) := by
  have htake := takeWhile_ne_append_cons hc rest
  have hdrop : (inside ++ ')' :: rest).dropWhile (· != ')') = ')' :: rest := by
    have hsplit := List.takeWhile_append_dropWhile (p := (· != ')')) (l := inside ++ ')' :: rest)
    rw [htake] at hsplit
    exact List.append_cancel_left hsplit
  have hempty : inside.isEmpty = false := by simpa using hne
  rw [group?, hm]
  simp only [htake, hdrop, hempty]
  rfl

/-! ### Reading key clauses -/

section

variable {a : List Char} (s : Spelling a) (k : Spelling key) (rest : List Char)

theorem startsWith_phrase : startsWith [a, key] (s.text ++ ' ' :: (k.text ++ ' ' :: rest)) = true := by
  rw [startsWith, phrase?_append]
  rfl

theorem classify_primaryKey (p : Spelling primary) :
    classify (p.text ++ ' ' :: (k.text ++ ' ' :: rest)) = .primaryKey := by
  rw [classify, if_pos (startsWith_phrase p k rest)]

theorem classify_foreignKey (f : Spelling foreign) :
    classify (f.text ++ ' ' :: (k.text ++ ' ' :: rest)) = .foreignKey := by
  have hprimary : startsWith [primary, key] (f.text ++ ' ' :: (k.text ++ ' ' :: rest)) = false := by
    refine startsWith_eq_false (keyword?_space_append (by decide) f.ascii ?_ _) _
    rw [f.map_toLower]
    decide
  rw [classify, hprimary, if_neg (by simp), if_pos (startsWith_phrase f k rest)]

variable {inside : List Char} (hne : inside ≠ []) (hclose : ')' ∉ inside)

include hne hclose

theorem Draft.keyNames?_append : Draft.keyNames? [a, key]
    (s.text ++ ' ' :: (k.text ++ ' ' :: '(' :: (inside ++ ')' :: rest))) =
      some ((names inside).map String.ofList, rest) := by
  have hgroup : group? (' ' :: '(' :: (inside ++ ')' :: rest)) = some (inside, rest) :=
    group?_eq rfl hne hclose
  rw [Draft.keyNames?, phrase?_append, Option.bind_some, hgroup]
  rfl

theorem Draft.primaryKey?_append (p : Spelling primary) : Draft.primaryKey?
    (p.text ++ ' ' :: (k.text ++ ' ' :: '(' :: (inside ++ ')' :: rest))) =
      some ((names inside).map String.ofList) := by
  refine search?_of_some ?_
  rw [Draft.keyNames?_append p k rest hne hclose]
  rfl

/-- A foreign key clause gives its columns here, the table that is read behind the keyword, and the columns
that are read behind the table. -/
theorem Draft.foreignKey_append (f : Spelling foreign) (r : Spelling references) {u table tail : List Char}
    (hu : skipBlanks u = u) (hq : qualifiedName? u = some (table, tail)) :
    search? Draft.foreignKeyHere?
      (f.text ++ ' ' :: (k.text ++ ' ' :: '(' :: (inside ++ ')' :: ' ' :: (r.text ++ ' ' :: u)))) =
        some ⟨(names inside).map String.ofList, String.ofList table,
          ((group? tail).map fun p => (names p.1).map String.ofList).getD []⟩ := by
  have hreferences : skipBlanks (' ' :: (r.text ++ ' ' :: u)) = r.text ++ ' ' :: u := r.skipBlanks_append
  have hblanks : blanks? (' ' :: u) = some u := congrArg some hu
  refine search?_of_some ?_
  rw [Draft.foreignKeyHere?, Draft.keyNames?_append f k _ hne hclose]
  simp only [hreferences, r.keyword?_append, Option.bind_some, hblanks, hq]
  cases group? tail <;> rfl

end

end ErCanvas.Sql
