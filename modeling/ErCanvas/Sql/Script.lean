import ErCanvas.Json.Basic
import ErCanvas.Sql.Comment
import ErCanvas.Sql.Draft
import ErCanvas.Sql.Nesting

/-! # Scripts

A script is cleaned, and every statement that creates a table is read from it: a header up to an
opening parenthesis, then a body up to the parenthesis that closes it. A statement that is never
closed is passed over, and reading goes on behind its opening parenthesis.

* `extract`: the schema of a script, or the reason why there is none, with the notes. -/

namespace ErCanvas.Sql

/-! ### Headers -/

/-- The text behind the condition that the table must not exist yet. -/
def unlessExists? (cs : List Char) : Option (List Char) :=
  (phrase? ["if".toList, "not".toList, "exists".toList] cs).bind blanks?

/-- The name of a table and the text behind the parenthesis that follows it. -/
def tableName? (cs : List Char) : Option (List Char × List Char) :=
  match qualifiedName? cs with
  | none => none
  | some (name, rest) => (mark? '(' rest).map fun body => (name, body)

/-- The name in the header of a statement at the front of a text, and the text behind its
parenthesis. The words of the condition may also be the name. -/
def headerHere? (cs : List Char) : Option (List Char × List Char) :=
  match (phrase? ["create".toList, "table".toList] cs).bind blanks? with
  | none => none
  | some rest =>
    match (unlessExists? rest).bind tableName? with
    | some header => some header
    | none => tableName? rest

/-- The first header along the text. -/
def header? : List Char → Option (List Char × List Char) := search? headerHere?

theorem length_of_keyword? {k cs rest : List Char} (h : keyword? k cs = some rest) :
    rest.length ≤ cs.length := by
  induction k generalizing cs with
  | nil => simp only [keyword?, Option.some.injEq] at h; subst h; exact Nat.le_refl _
  | cons a k ih =>
    cases cs with
    | nil => simp [keyword?] at h
    | cons c cs =>
      simp only [keyword?] at h
      split at h
      · have := ih h; simp only [List.length_cons]; omega
      · cases h

theorem length_of_blanks? {cs rest : List Char} (h : blanks? cs = some rest) :
    rest.length ≤ cs.length := by
  cases cs with
  | nil => simp [blanks?] at h
  | cons c cs =>
    simp only [blanks?] at h
    split at h
    · cases h; have := length_skipBlanks_le cs; simp only [List.length_cons]; omega
    · cases h

theorem length_of_phrase? {ks : List (List Char)} {cs rest : List Char}
    (h : phrase? ks cs = some rest) : rest.length ≤ cs.length := by
  induction ks generalizing cs with
  | nil => simp only [phrase?, Option.some.injEq] at h; subst h; exact Nat.le_refl _
  | cons k ks ih =>
    cases ks with
    | nil => exact length_of_keyword? h
    | cons k' ks =>
      obtain ⟨a, ha, h⟩ := Option.bind_eq_some_iff.1 h
      obtain ⟨b, hb, ha⟩ := Option.bind_eq_some_iff.1 ha
      have h1 := length_of_keyword? hb
      have h2 := length_of_blanks? ha
      have h3 := ih h
      omega

theorem length_of_tableName? {cs name rest : List Char} (h : tableName? cs = some (name, rest)) :
    rest.length < cs.length := by
  unfold tableName? at h
  split at h
  · cases h
  · rename_i n r hq
    obtain ⟨b, hb, h⟩ := Option.map_eq_some_iff.1 h
    cases h
    have h1 := length_of_qualifiedName? hq
    have h2 := length_of_mark? hb
    omega

theorem length_of_headerHere? {cs name rest : List Char}
    (h : headerHere? cs = some (name, rest)) : rest.length < cs.length := by
  unfold headerHere? at h
  split at h
  · cases h
  · rename_i r hr
    obtain ⟨a, ha, hr⟩ := Option.bind_eq_some_iff.1 hr
    have h1 := length_of_phrase? ha
    have h2 := length_of_blanks? hr
    split at h
    · rename_i hd hh
      cases h
      obtain ⟨b, hb, hh⟩ := Option.bind_eq_some_iff.1 hh
      obtain ⟨c, hc, hb⟩ := Option.bind_eq_some_iff.1 hb
      have h3 := length_of_phrase? hc
      have h4 := length_of_blanks? hb
      have h5 := length_of_tableName? hh
      omega
    · have h5 := length_of_tableName? h
      omega

theorem length_of_header? {cs name rest : List Char} (h : header? cs = some (name, rest)) :
    rest.length < cs.length := by
  unfold header? at h
  fun_induction search? headerHere? cs with
  | case1 => exact length_of_headerHere? h
  | case2 c cs a ha => cases h; exact length_of_headerHere? ha
  | case3 c cs _ ih => have := ih h; simp only [List.length_cons]; omega

/-! ### Statements -/

/-- A statement that creates a table. -/
inductive Statement where
  | closed (name : List Char) (body : List Char)
  | unclosed (name : List Char)

/-- The statements of a clean script. -/
def statements (cs : List Char) : List Statement :=
  match _ : header? cs with
  | none => []
  | some (name, rest) =>
    match closing? ⟨1, none⟩ rest with
    | none => .unclosed name :: statements rest
    | some i => .closed name (rest.take i) :: statements (rest.drop (i + 1))
termination_by cs.length
decreasing_by
  · exact length_of_header? ‹header? cs = some _›
  · have := length_of_header? ‹header? cs = some _›
    simp only [List.length_drop]; omega

/-! ### Extraction -/

/-- What has been read of a script: tables, relationships and notes. -/
structure Progress where
  tables : List (Table String)
  relationships : List (Relationship String)
  notes : List Note

/-- Nothing has been read. -/
def Progress.start : Progress := ⟨[], [], []⟩

/-- The table of a statement's body, with the relationships and notes before it. -/
def draftOf (p : Progress) (name body : List Char) : Draft :=
  (clauses body).foldl Draft.apply ⟨⟨String.ofList name, []⟩, p.relationships, p.notes⟩

/-- One more statement. -/
def Progress.add (p : Progress) : Statement → Progress
  | .unclosed name => { p with notes := p.notes ++ [.unclosed (String.ofList name)] }
  | .closed name body =>
    let d := draftOf p name body
    ⟨p.tables ++ [d.table], d.relationships, d.notes⟩

/-- All that a script says. -/
def progressOf (cs : List Char) : Progress := (statements (clean cs)).foldl Progress.add .start

/-- Why a script has no schema. -/
inductive Defect where
  | noStatements
  /-- What is given as a script is not a text. -/
  | notText (kind : String)
deriving DecidableEq, Repr

/-- The wording of a defect. -/
def Defect.message : Defect → String
  | noStatements => "No CREATE TABLE statements found"
  | notText kind => "Parse error: expected string or bytes-like object, got '" ++ kind ++ "'"

/-- The schema of a script, if it has a table, and the notes. -/
def extract (script : String) : Except Defect (Schema String) × List Note :=
  let p := progressOf script.toList
  (if p.tables.isEmpty then .error .noStatements else .ok ⟨p.tables, p.relationships⟩, p.notes)

/-- The schema of a value that should be a script. -/
def extractFrom : Json → Except Defect (Schema String) × List Note
  | .str script => extract script
  | v => (.error (.notText v.kind), [])

end ErCanvas.Sql
