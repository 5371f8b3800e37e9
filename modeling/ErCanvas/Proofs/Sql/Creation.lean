import ErCanvas.Proofs.Sql.Script
import ErCanvas.Proofs.Sql.Sentence

/-! # Statements as they are written

A statement that creates a table is written as its head, its clauses in parentheses, and a semicolon. It
is clean as it stands, its head is read, the parenthesis behind the clauses closes it, and the clauses
come back. A script of such statements, with any white space behind each of them, says what their
clauses say, one statement after the other (`progressOf_script`). -/

namespace ErCanvas.Sql

open Text (Blank isBlank isPlain)

/-! ### Heads of statements -/

/-- Before a parenthesis the condition is not read, even if the name is the first word of it. -/
theorem condition_eq_none (w : Word) (rest : List Char) :
    phrase? ["if".toList, "not".toList, "exists".toList] (w.text ++ ' ' :: '(' :: rest) = none := by
  have hif : IsKeyword "if".toList := by simp [IsKeyword]
  rw [phrase?_cons, keyword?_append_cons hif.sameLetter_space]
  cases hk : keyword? "if".toList w.text with
  | none => rfl
  | some x =>
    obtain ⟨p, hp, -⟩ := (keyword?_eq_some w.ascii).1 hk
    cases x with
    | nil =>
      show phrase? ["not".toList, "exists".toList] ('(' :: rest) = none
      have hn : sameLetter 'n' '(' = false := by decide
      rw [phrase?_cons]
      simp [keyword?, hn]
    | cons c x =>
      have hc : isBlank c = false :=
        Text.isBlank_of_isPlain (w.plain c (by rw [hp]; exact List.mem_append_right p (.head _)))
      show ((if isBlank c = true then some _ else none).bind _) = none
      rw [hc]; rfl

theorem ne_of_isClauseChar {c : Char} (h : isClauseChar c = true) : c ≠ '-' ∧ c ≠ '/' := by
  constructor
  · rintro rfl; cases h
  · rintro rfl; cases h

section

variable (create : Spelling "create".toList) (table : Spelling "table".toList) (name : Word)

theorem fragment_head : Fragment (sentence [create.text, table.text, name.text]) := by
  refine .sentence (by simp) ?_
  simp only [List.forall_mem_cons, List.not_mem_nil, IsEmpty.forall_iff, implies_true, and_true]
  exact ⟨.word _, .word _, .word _⟩

/-- The head of a statement is read, whatever stands behind its parenthesis. -/
theorem headerHere?_head (rest : List Char) :
    headerHere? (sentence [create.text, table.text, name.text] ++ ' ' :: '(' :: rest) =
      some (name.text, rest) := by
  have hhead : sentence [create.text, table.text, name.text] ++ ' ' :: '(' :: rest =
      create.text ++ ' ' :: (table.text ++ ' ' :: (name.text ++ ' ' :: '(' :: rest)) := by
    simp [sentence_cons_cons, sentence_singleton]
  have hname : qualifiedName? (name.text ++ ' ' :: '(' :: rest) =
      some (name.text, ' ' :: '(' :: rest) :=
    name.qualifiedName?_append (ends_cons (by simp) _) rfl
  have hphrase : phrase? ["create".toList, "table".toList]
      (sentence [create.text, table.text, name.text] ++ ' ' :: '(' :: rest) =
      some (' ' :: (name.text ++ ' ' :: '(' :: rest)) := by
    rw [hhead, phrase?_append]
  rw [headerHere?_eq, hphrase, Option.bind_some, name.blanks?_space_append, Option.bind_some,
    headerName?, condition_eq_none, tableName?_eq, hname]
  rfl

end

/-! ### Statements -/

/-- A statement that creates a table. -/
structure Creation where
  create : Spelling "create".toList
  table : Spelling "table".toList
  name : Word
  clauses : List (List Char)
  fragments : ∀ c ∈ clauses, Fragment c
  /-- The white space behind the statement. -/
  gap : List Char
  gap_blank : Blank gap

namespace Creation

variable (s : Creation)

/-- The statement up to its closing parenthesis. -/
def front : List Char :=
  sentence [s.create.text, s.table.text, s.name.text] ++ ' ' :: '(' :: (listed s.clauses ++ [')'])

def text : List Char := s.front ++ ';' :: s.gap

/-- What the clauses make of an empty table. -/
def draft : Draft := s.clauses.foldl Draft.apply ⟨⟨String.ofList s.name.text, []⟩, [], []⟩

/-! ### Cleaning -/

theorem fragment_front : Fragment s.front :=
  (fragment_head s.create s.table s.name).space (.parens (inside_listed s.fragments))

/-- No character of the statement starts a comment. -/
theorem not_comment {c : Char} (hc : c ∈ s.text) : c ≠ '-' ∧ c ≠ '/' := by
  rcases List.mem_append.1 hc with hc | hc
  · exact ne_of_isClauseChar (s.fragment_front.chars c hc)
  · rcases List.mem_cons.1 hc with rfl | hc
    · decide
    · have hblank := s.gap_blank c hc
      constructor
      · rintro rfl; cases hblank
      · rintro rfl; cases hblank

theorem uncommented_front : Uncommented s.front :=
  uncommented_of_not_mem fun _ hc => s.not_comment (List.mem_append_left _ hc)

theorem clean_front : clean s.front = s.front := s.fragment_front.tidy.clean_eq s.uncommented_front

/-! ### Reading -/

theorem headerHere?_front : headerHere? s.front = some (s.name.text, listed s.clauses ++ [')']) :=
  headerHere?_head s.create s.table s.name _

theorem statements_front : statements s.front = [.closed s.name.text (listed s.clauses)] := by
  have hheader : header? s.front = some (s.name.text, listed s.clauses ++ [')']) :=
    search?_of_some s.headerHere?_front
  have hclose : closing? ⟨1, none⟩ (listed s.clauses ++ [')']) = some (listed s.clauses).length :=
    closing?_body.2 ⟨_, [], rfl, rfl, (inside_listed s.fragments).wellFormed⟩
  have hrest : (listed s.clauses ++ [')']).drop ((listed s.clauses).length + 1) = [] := by simp
  have hnil : statements [] = [] := statements_of_none rfl
  rw [statements_closed hheader hclose, List.take_left, hrest, hnil]

theorem progressOf_front :
    progressOf s.front = ⟨[s.draft.table], s.draft.relationships, s.draft.notes⟩ := by
  have hclauses : Sql.clauses (listed s.clauses) = s.clauses :=
    clauses_listed fun c hc => (s.fragments c hc).isClause
  rw [progressOf, s.clean_front, s.statements_front, List.foldl_cons, List.foldl_nil, Progress.add,
    draftOf, hclauses]
  rfl

end Creation

/-! ### Scripts -/

theorem progressOf_blank_append {b cs : List Char} (hb : Blank b) (h : Uncommented (b ++ cs))
    (hcs : Uncommented cs) : progressOf (b ++ cs) = progressOf cs := by
  rw [progressOf, progressOf, clean_of_uncommented h, clean_of_uncommented hcs,
    trim_collapse_blank_append hb]

/-- The statements one after the other. -/
def scriptOf (ss : List Creation) : List Char := ss.flatMap Creation.text

/-- **A script says** what its statements say, in their order. -/
theorem progressOf_script (ss : List Creation) :
    progressOf (scriptOf ss) = ⟨ss.map (·.draft.table), ss.flatMap (·.draft.relationships),
      ss.flatMap (·.draft.notes)⟩ := by
  have huncommented : ∀ ss : List Creation, Uncommented (scriptOf ss) := fun ss =>
    uncommented_of_not_mem fun c hc => by
      obtain ⟨s, -, hs⟩ := List.mem_flatMap.1 hc
      exact s.not_comment hs
  induction ss with
  | nil =>
    have hnil : statements [] = [] := statements_of_none rfl
    have hclean : clean [] = [] := clean_of_uncommented (huncommented [])
    show progressOf [] = _
    rw [progressOf, hclean, hnil]; rfl
  | cons s ss ih =>
    have hgap : Uncommented (s.gap ++ scriptOf ss) :=
      uncommented_of_not_mem fun c hc => by
        rcases List.mem_append.1 hc with hc | hc
        · exact s.not_comment (List.mem_append_right _ (.tail _ hc))
        · obtain ⟨s', -, hs⟩ := List.mem_flatMap.1 hc
          exact s'.not_comment hs
    have hclosed : ∀ t ∈ statements (clean s.front), t.Closed := by
      rw [s.clean_front, s.statements_front]
      intro t ht
      cases List.mem_singleton.1 ht
      trivial
    have hsplit : scriptOf (s :: ss) = s.front ++ ';' :: (s.gap ++ scriptOf ss) := by
      rw [scriptOf, List.flatMap_cons, Creation.text, List.append_assoc]; rfl
    rw [hsplit, progressOf_append s.uncommented_front hgap hclosed, s.progressOf_front,
      progressOf_blank_append s.gap_blank hgap (huncommented ss), ih]
    rfl

end ErCanvas.Sql
