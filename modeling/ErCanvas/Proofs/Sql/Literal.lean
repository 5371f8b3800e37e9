import ErCanvas.Proofs.Sql.Commented
import ErCanvas.Proofs.Sql.Default
import ErCanvas.Proofs.Sql.Header

/-! # Literals

What stands in quotes as the default of a column counts in three ways only: comments in it are taken out,
the options that it names are options of the column, and if a statement further up is never closed and
leaves a quote open, the literal is read outside quotes there. Other than that a script says the same
with any literal in the place (`extract_literal`).

* `Reached`: reading a script comes to a statement, in whose body the literal stands.
* `Defaulted`: a script with a literal as the default of a column. -/

namespace ErCanvas.Sql

open Nesting (top)
open Text (Blank isBlank trim trimStart dropWhileEnd)

/-! ### Scripts without comments -/

/-- There is no comment in the text: neither the start of one that ends with the line, nor a block that
is closed. -/
structure Commentless (cs : List Char) : Prop where
  noLine : ¬ ['-', '-'] <:+: cs
  noBlock : ∀ t, ¬ '/' :: '*' :: (t ++ ['*', '/']) <:+: cs

theorem Uncommented.commentless {cs : List Char} (h : Uncommented cs) : Commentless cs where
  noLine := h.noLine
  noBlock t hi := h.noBlock ((List.prefix_append ['/', '*'] (t ++ ['*', '/'])).isInfix.trans hi)

theorem Commentless.clean_eq {cs : List Char} (h : Commentless cs) :
    clean cs = trim (collapse false cs) := by
  rw [clean, dropBlocks_of_noBlock h.noBlock, dropLines_of_not_infix h.noLine]

theorem Quoteless.collapse {l : List Char} (h : Quoteless l) : Quoteless (Sql.collapse false l) := by
  intro c hc
  rcases mem_collapse hc with rfl | hc
  · rfl
  · exact h c hc

/-- The text with a literal in a place. -/
def withLiteral (before behind l : List Char) : List Char := before ++ (quoted l ++ behind)

/-- A script with a literal in it is cleaned before, in and behind the quotes. -/
theorem clean_withLiteral {before behind l : List Char} (h : Commentless (withLiteral before behind l)) :
    clean (withLiteral before behind l) = withLiteral (trimStart (collapse false before))
      (dropWhileEnd isBlank (collapse false behind)) (collapse false l) := by
  rw [h.clean_eq, withLiteral, withLiteral, quoted_append, quoted_append,
    collapse_append_cons (by decide), collapse_append_cons (by decide),
    Text.trim_append_cons (by decide), Text.dropWhileEnd_append_cons (by decide)]

/-! ### Clauses in a body -/

/-- Behind the text a clause starts: it is white space, or ends with a comma that separates. -/
def StartsClause (a : List Char) : Prop :=
  ∃ b, Blank b ∧ (a = b ∨ ∃ e, a = e ++ ',' :: b ∧ top.scan e = top)

/-- In front of the text a clause ends: it is white space, or begins with a comma. -/
def EndsClause (z : List Char) : Prop := ∃ b, Blank b ∧ (z = b ∨ ∃ e, z = b ++ ',' :: e)

theorem StartsClause.scan {a : List Char} (h : StartsClause a) : top.scan a = top := by
  obtain ⟨b, hb, rfl | ⟨e, rfl, he⟩⟩ := h
  · exact scan_top_of_blank hb
  · rw [Nesting.scan_append, he]
    show top.scan b = top
    exact scan_top_of_blank hb

theorem clauses_blank_append {b : List Char} (hb : Blank b) (cs : List Char) :
    clauses (b ++ cs) = clauses cs := by
  induction b with
  | nil => rfl
  | cons c b ih =>
    rw [List.cons_append, clauses_blank_cons (hb c (.head _))]
    exact ih fun d hd => hb d (.tail _ hd)

/-- White space behind a clause does not count. -/
theorem IsClause.clauses_append_blank {c b : List Char} (h : IsClause c) (hb : Blank b) :
    clauses (c ++ b) = [c] := by
  have hcomma : ',' ∉ b := fun hm => by cases hb _ hm
  have hpieces : pieces top (c ++ b) = [c ++ b] := h.undivided.append h.closed (undivided_of_not_mem hcomma)
  have htrim : trim (c ++ b) = c := (Text.trim_append_blank hb c).trans h.trimmed
  have hne : c.isEmpty = false := by simpa using h.ne_nil
  rw [clauses, hpieces, List.map_singleton, htrim, List.filter_cons_of_pos (by simp [hne])]
  rfl

/-- **A clause in a body** is one of its clauses, and the others do not depend on it. -/
theorem exists_clauses_eq {a z : List Char} (ha : StartsClause a) (hz : EndsClause z) :
    ∃ cs ds, ∀ c, IsClause c → clauses (a ++ (c ++ z)) = cs ++ c :: ds := by
  have hend : ∃ ds, ∀ c, IsClause c → clauses (c ++ z) = c :: ds := by
    obtain ⟨b, hb, rfl | ⟨e, rfl⟩⟩ := hz
    · exact ⟨[], fun c hc => hc.clauses_append_blank hb⟩
    · refine ⟨clauses e, fun c hc => ?_⟩
      have hscan : top.scan (c ++ b) = top := by
        rw [Nesting.scan_append, hc.closed, scan_top_of_blank hb]
      rw [← List.append_assoc, clauses_append_comma hscan, hc.clauses_append_blank hb]
      rfl
  obtain ⟨ds, hds⟩ := hend
  obtain ⟨b, hb, rfl | ⟨e, rfl, he⟩⟩ := ha
  · exact ⟨[], ds, fun c hc => (clauses_blank_append hb _).trans (hds c hc)⟩
  · refine ⟨clauses e, ds, fun c hc => ?_⟩
    rw [List.append_assoc, List.cons_append, clauses_append_comma he, clauses_blank_append hb, hds c hc]

/-! ### Statements -/

section

variable {l p q s name : List Char}

/-- Reading `p` with `t` behind it comes to a statement of the name whose body starts with `s` and goes on
with `t`. If a statement before it is never closed, it leaves no quote open in front of `t`. -/
inductive Reached (t name s : List Char) : List Char → Prop where
  | here {p : List Char} (h : header? (p ++ t) = some (name, s ++ t)) : Reached t name s p
  | closed {p n b u : List Char} (h : header? (p ++ t) = some (n, b ++ ')' :: (u ++ t)))
      (hb : WellFormed b) (hu : Reached t name s u) : Reached t name s p
  | unclosed {p n u : List Char} (h : header? (p ++ t) = some (n, u ++ t))
      (hi : closing? ⟨1, none⟩ (u ++ t) = none) (hq : openQuote none u ≠ some '\'')
      (hu : Reached t name s u) : Reached t name s p

/-- **Reading comes to the statement** with any literal in the place, past the same statements. -/
theorem Reached.exists_statements (hl : Quoteless l) (h : Reached (quoted l ++ q) name s p) :
    ∃ ss, ∀ l', Quoteless l' → ∀ body rest, WellFormed body →
      s ++ (quoted l' ++ q) = body ++ ')' :: rest →
      statements (p ++ (quoted l' ++ q)) = ss ++ .closed name body :: statements rest := by
  induction h with
  | here h =>
    refine ⟨[], fun l' _ body rest hw he => ?_⟩
    have hh := header?_append_of_some h (quoted l' ++ q)
    rw [he] at hh
    exact statements_body hh hw
  | @closed p n b u h hb _ ih =>
    obtain ⟨ss, hss⟩ := ih
    refine ⟨.closed n b :: ss, fun l' hl' body rest hw he => ?_⟩
    have hassoc : ∀ t, b ++ ')' :: (u ++ t) = (b ++ ')' :: u) ++ t := by simp
    have hh : header? (p ++ (quoted l' ++ q)) = some (n, b ++ ')' :: (u ++ (quoted l' ++ q))) := by
      rw [hassoc] at h ⊢
      exact header?_append_of_some h _
    rw [statements_body hh hb, hss l' hl' body rest hw he]
    rfl
  | @unclosed p n u h hi hq _ ih =>
    obtain ⟨ss, hss⟩ := ih
    refine ⟨.unclosed n :: ss, fun l' hl' body rest hw he => ?_⟩
    rw [statements_unclosed (header?_append_of_some h _) (closing?_append_quoted_eq_none hl hl' hq hi),
      hss l' hl' body rest hw he]
    rfl

end

/-! ### Scripts -/

/-- A script with a literal as the default of a column. -/
structure Defaulted where
  before : List Char
  literal : List Char
  behind : List Char
  quoteless : Quoteless literal
  commentless : Commentless (withLiteral before behind literal)
  -- the clean text is divided at the parentheses of the statement and at both ends of the clause
  table : List Char
  earlier : List Char
  clause : DefaultClause
  later : List Char
  rest : List Char
  -- the statement is read, and is closed behind `later`
  reached : Reached (quoted (collapse false literal) ++ dropWhileEnd isBlank (collapse false behind)) table
    (earlier ++ clause.text) (trimStart (collapse false before))
  behind_eq : dropWhileEnd isBlank (collapse false behind) = later ++ ')' :: rest
  wellFormed : WellFormed (earlier ++ ((clause.text ++ quoted (collapse false literal)) ++ later))
  -- the clause is one of the clauses of its body, and defines a column
  startsClause : StartsClause earlier
  isClause : IsClause (clause.text ++ quoted (collapse false literal))
  endsClause : EndsClause later
  column : classify clause.text = .column

namespace Defaulted

variable (s : Defaulted) {l : List Char}

/-- The script with a literal in the place. -/
def textWith (l : List Char) : List Char := withLiteral s.before s.behind l

/-- The body of the statement with a literal in the place. -/
def bodyWith (l : List Char) : List Char := s.earlier ++ ((s.clause.text ++ quoted l) ++ s.later)

theorem openQuote_front : openQuote none (s.earlier ++ s.clause.text) = none := by
  have hclause : top.scan s.clause.text = top :=
    scan_eq_top_of_quoted s.quoteless.collapse s.isClause.closed
  have h : top.scan (s.earlier ++ s.clause.text) = top := by
    rw [Nesting.scan_append, s.startsClause.scan, hclause]
  rw [Nesting.scan_top] at h
  exact congrArg Nesting.quote h

theorem wellFormed_bodyWith (hl : Quoteless l) : WellFormed (s.bodyWith l) := by
  have hquote : openQuote none (s.earlier ++ s.clause.text) ≠ some '\'' := by rw [s.openQuote_front]; simp
  have happend : ∀ l, s.bodyWith l = (s.earlier ++ s.clause.text) ++ (quoted l ++ s.later) := fun l => by
    simp [bodyWith]
  have h : WellFormed (s.bodyWith (collapse false s.literal)) := s.wellFormed
  rw [happend] at h ⊢
  exact h.quoted s.quoteless.collapse hl hquote

/-- The statements of the script are the same with any literal, apart from the clause with the literal. -/
theorem exists_statements : ∃ ss, ∀ l, Quoteless l → Commentless (s.textWith l) →
    statements (clean (s.textWith l)) =
      ss ++ .closed s.table (s.bodyWith (collapse false l)) :: statements s.rest := by
  obtain ⟨ss, hss⟩ := s.reached.exists_statements s.quoteless.collapse
  refine ⟨ss, fun l hl hc => ?_⟩
  rw [textWith, clean_withLiteral hc]
  refine hss _ hl.collapse _ _ (s.wellFormed_bodyWith hl.collapse) ?_
  rw [s.behind_eq]
  simp [bodyWith]

/-- The table is the same with literals that name the same options. -/
theorem draftOf_bodyWith {l l' : List Char} (hl : Quoteless l) (hl' : Quoteless l')
    (h : optionsIn l = optionsIn l') :
    draftOf .start s.table (s.bodyWith l) = draftOf .start s.table (s.bodyWith l') := by
  obtain ⟨cs, ds, hclauses⟩ := exists_clauses_eq s.startsClause s.endsClause
  have hclause : ∀ l, Quoteless l →
      clauses (s.bodyWith l) = cs ++ (s.clause.text ++ quoted l) :: ds := fun l hl =>
    hclauses _ (s.isClause.quoted s.quoteless.collapse hl)
  rw [draftOf, draftOf, hclause l hl, hclause l' hl', List.foldl_append, List.foldl_append,
    List.foldl_cons, List.foldl_cons, s.clause.apply_quoted s.column h]

end Defaulted

theorem read_closed_congr {name b b' : List Char} (h : draftOf .start name b = draftOf .start name b')
    (ss ts : List Statement) :
    read (ss ++ .closed name b :: ts) = read (ss ++ .closed name b' :: ts) := by
  have hone : read [.closed name b] = read [.closed name b'] := by
    show Progress.start.add (.closed name b) = Progress.start.add (.closed name b')
    rw [Progress.add, Progress.add, h]
  have hsplit : ∀ s, read (ss ++ s :: ts) = (read ss).append ((read [s]).append (read ts)) := fun s => by
    rw [read_append, ← List.singleton_append, read_append]
  rw [hsplit, hsplit, hone]

/-- **A literal counts by the options that it names**, and by nothing else in it: with another one in its
place that names the same options the script says the same. -/
theorem extract_literal (s : Defaulted) {l : List Char} (hl : Quoteless l)
    (hc : Commentless (s.textWith l))
    (ho : optionsIn (collapse false l) = optionsIn (collapse false s.literal)) :
    extract (String.ofList (s.textWith l)) = extract (String.ofList (s.textWith s.literal)) := by
  obtain ⟨ss, hss⟩ := s.exists_statements
  have hread := read_closed_congr (s.draftOf_bodyWith hl.collapse s.quoteless.collapse ho) ss
    (statements s.rest)
  rw [← hss l hl hc, ← hss s.literal s.quoteless s.commentless] at hread
  have hp : progressOf (s.textWith l) = progressOf (s.textWith s.literal) := hread
  simp only [extract, String.toList_ofList, hp]

/-- A script with a statement that is never closed, as a quote of another kind is left open in it, and
behind that one with a default. -/
def brokenScript : Defaulted where
  before := "CREATE TABLE s (\"\nCREATE TABLE t (a int,\n  b int (4) DEFAULT ".toList
  literal := "),  CREATE TABLE u (c int".toList
  behind := ",\n  c int\n);\n".toList
  quoteless := by decide
  commentless := Uncommented.commentless ⟨by decide +kernel, by decide +kernel⟩
  table := ['t']
  earlier := "a int, ".toList
  clause := {
    opening := none
    name := ['b']
    closing := none
    type := "int".toList
    arguments := some ([' '], ['4'])
    more := []
    default := .of "DEFAULT" (by decide) (by decide)
    gap := [' ']
    isOpening_opening := by simp
    name_ne_nil := by decide
    isWordChar_name := List.all_eq_true.1 (by decide)
    isClosing_closing := by simp
    type_ne_nil := by decide
    isWordChar_type := List.all_eq_true.1 (by decide)
    arguments_closed := by simp [Spaces]
    more_apart := by simp
    gap_spaces := by simp [Spaces] }
  later := ", c int ".toList
  rest := [';']
  reached := .unclosed (n := ['s']) (u := "\" CREATE TABLE t (a int, b int (4) DEFAULT ".toList)
    (by decide +kernel) (by decide +kernel) (by decide +kernel) (.here (by decide +kernel))
  behind_eq := by decide +kernel
  wellFormed := wellFormed_iff_closing?.2 (by decide +kernel)
  startsClause := ⟨[' '], blank_space, .inr ⟨"a int".toList, by decide, by decide +kernel⟩⟩
  isClause := ⟨by decide +kernel, by unfold Undivided; decide +kernel, by decide +kernel, by decide +kernel⟩
  endsClause := ⟨[], by simp [Blank], .inr ⟨" c int ".toList, by decide⟩⟩
  column := by decide +kernel

theorem extract_literal_broken :
    Quoteless "none, (0)".toList ∧ Commentless (brokenScript.textWith "none, (0)".toList) ∧
      optionsIn (collapse false "none, (0)".toList) = optionsIn (collapse false brokenScript.literal) ∧
      String.ofList (brokenScript.textWith brokenScript.literal) = "CREATE TABLE s (\"\n" ++
        "CREATE TABLE t (a int,\n  b int (4) DEFAULT '),  CREATE TABLE u (c int',\n" ++
        "  c int\n);\n" ∧
      (extract (String.ofList (brokenScript.textWith brokenScript.literal))).1 =
        .ok ⟨[⟨"t", [⟨"a", "int", false, false, true, none⟩, ⟨"b", "int (4)", false, false, true, none⟩,
          ⟨"c", "int", false, false, true, none⟩]⟩], []⟩ := by
  have hl : Quoteless "none, (0)".toList := by decide
  have hc : Commentless (brokenScript.textWith "none, (0)".toList) :=
    Uncommented.commentless ⟨by decide +kernel, by decide +kernel⟩
  have ho : optionsIn (collapse false "none, (0)".toList) =
      optionsIn (collapse false brokenScript.literal) := by decide +kernel
  refine ⟨hl, hc, ho, by decide +kernel, ?_⟩
  rw [← extract_literal brokenScript hl hc ho, extract_ofList]
  decide +kernel

/-! ### Literals that count -/

/-- A script with a literal in a place. -/
def literalScript (before behind l : String) : String :=
  String.ofList (withLiteral before.toList behind.toList l.toList)

/-- Two literals in the same place do not read alike. -/
structure Exposed (before behind l l' : String) : Prop where
  quoteless : Quoteless l.toList ∧ Quoteless l'.toList
  differs : (extract (literalScript before behind l)).1 ≠ (extract (literalScript before behind l')).1

theorem exposed {before behind l l' : String} {r r' : Except Defect (Schema String)}
    (hq : Quoteless l.toList ∧ Quoteless l'.toList)
    (h : (extract (literalScript before behind l)).1 = r)
    (h' : (extract (literalScript before behind l')).1 = r') (hne : r ≠ r') :
    Exposed before behind l l' := ⟨hq, by rwa [h, h']⟩

/-- **Literals are not opaque**: they count by the options that they name, by the comments that they start
or end, and where a quote is left open in front of them. -/
theorem extract_literal_exposed :
    Exposed "CREATE TABLE t (a int DEFAULT " ")" "NOT NULL" "x" ∧
      Exposed "CREATE TABLE t (a int DEFAULT " ")" "PRIMARY KEY" "x" ∧
      Exposed "CREATE TABLE t (a int DEFAULT " ")" "REFERENCES u" "x" ∧
      Exposed "CREATE TABLE t (a int DEFAULT " ")" "--" "x" ∧
      Exposed "CREATE TABLE t (a int DEFAULT " ", b int DEFAULT '*/')" "/*" "x" ∧
      Exposed "CREATE TABLE s (x ' CREATE TABLE t (a int DEFAULT " " )" ")" "x" := by
  have hx : (extract (literalScript "CREATE TABLE t (a int DEFAULT " ")" "x")).1 =
      .ok ⟨[⟨"t", [⟨"a", "int", false, false, true, none⟩]⟩], []⟩ := by
    rw [literalScript, extract_ofList]; decide +kernel
  have hnotNull : (extract (literalScript "CREATE TABLE t (a int DEFAULT " ")" "NOT NULL")).1 =
      .ok ⟨[⟨"t", [⟨"a", "int", false, false, false, none⟩]⟩], []⟩ := by
    rw [literalScript, extract_ofList]; decide +kernel
  have hprimary : (extract (literalScript "CREATE TABLE t (a int DEFAULT " ")" "PRIMARY KEY")).1 =
      .ok ⟨[⟨"t", [⟨"a", "int", true, false, false, none⟩]⟩], []⟩ := by
    rw [literalScript, extract_ofList]; decide +kernel
  have hreference : (extract (literalScript "CREATE TABLE t (a int DEFAULT " ")" "REFERENCES u")).1 =
      .ok ⟨[⟨"t", [⟨"a", "int", false, true, true, some ⟨"u", "id"⟩⟩]⟩], [⟨"t", "a", "u", "id"⟩]⟩ := by
    rw [literalScript, extract_ofList]; decide +kernel
  have hline : (extract (literalScript "CREATE TABLE t (a int DEFAULT " ")" "--")).1 =
      .error .noStatements := by
    rw [literalScript, extract_ofList]; decide +kernel
  have htwo : (extract (literalScript "CREATE TABLE t (a int DEFAULT " ", b int DEFAULT '*/')" "x")).1 =
      .ok ⟨[⟨"t", [⟨"a", "int", false, false, true, none⟩, ⟨"b", "int", false, false, true, none⟩]⟩],
        []⟩ := by
    rw [literalScript, extract_ofList]; decide +kernel
  have hblock : (extract (literalScript "CREATE TABLE t (a int DEFAULT " ", b int DEFAULT '*/')"
      "/*")).1 = .ok ⟨[⟨"t", [⟨"a", "int", false, false, true, none⟩]⟩], []⟩ := by
    rw [literalScript, extract_ofList]; decide +kernel
  have hopen : (extract (literalScript "CREATE TABLE s (x ' CREATE TABLE t (a int DEFAULT " " )"
      "x")).1 = .ok ⟨[⟨"t", [⟨"a", "int", false, false, true, none⟩]⟩], []⟩ := by
    rw [literalScript, extract_ofList]; decide +kernel
  have hshut : (extract (literalScript "CREATE TABLE s (x ' CREATE TABLE t (a int DEFAULT " " )"
      ")")).1 = .ok ⟨[⟨"s", []⟩], []⟩ := by
    rw [literalScript, extract_ofList]; decide +kernel
  exact ⟨exposed (by decide) hnotNull hx (by decide), exposed (by decide) hprimary hx (by decide),
    exposed (by decide) hreference hx (by decide), exposed (by decide) hline hx (by decide),
    exposed (by decide) hblock htwo (by decide), exposed (by decide) hshut hopen (by decide)⟩

end ErCanvas.Sql
