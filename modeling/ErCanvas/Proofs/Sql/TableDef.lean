import ErCanvas.Proofs.Sql.ColumnDef
import ErCanvas.Proofs.Sql.Creation

/-! # Table definitions

A script that consists of table definitions has the schema that is written: its tables in their order,
with their columns in theirs, and one relationship for every column with a reference
(`extract_script`). -/

namespace ErCanvas.Sql

open Text (Blank)

/-- The columns say what they say one after the other. -/
theorem foldl_apply_columns (d : Draft) (cs : List ColumnDef) :
    (cs.map ColumnDef.text).foldl Draft.apply d =
      ⟨⟨d.table.name, d.table.columns ++ cs.map ColumnDef.column⟩,
        d.relationships ++ cs.filterMap (ColumnDef.relationship? d.table.name), d.notes⟩ := by
  induction cs generalizing d with
  | nil => simp
  | cons c cs ih =>
    rw [List.map_cons, List.foldl_cons, c.apply_text, ih]
    cases h : c.relationship? d.table.name <;> simp [h]

/-- The definition of a table. -/
structure TableDef where
  create : Spelling "create".toList
  table : Spelling "table".toList
  name : Word
  columns : List ColumnDef
  /-- The white space behind the definition. -/
  gap : List Char
  gap_blank : Blank gap

namespace TableDef

variable (t : TableDef)

/-- How the definition is written. -/
def creation : Creation where
  create := t.create
  table := t.table
  name := t.name
  clauses := t.columns.map ColumnDef.text
  fragments c hc := by
    obtain ⟨d, -, rfl⟩ := List.mem_map.1 hc
    exact d.fragment_text
  gap := t.gap
  gap_blank := t.gap_blank

/-- What the definition says. -/
def meaning : Table String := ⟨String.ofList t.name.text, t.columns.map ColumnDef.column⟩

/-- One relationship for every column with a reference. -/
def relationships : List (Relationship String) :=
  t.columns.filterMap (ColumnDef.relationship? (String.ofList t.name.text))

theorem draft_creation : t.creation.draft = ⟨t.meaning, t.relationships, []⟩ := by
  show (t.columns.map ColumnDef.text).foldl Draft.apply _ = _
  rw [foldl_apply_columns]
  rfl

theorem id_meaning : t.meaning.id = String.ofList t.name.lower := t.name.lower_ofList

end TableDef

/-- The script with the definitions one after the other. -/
def script (ts : List TableDef) : String := String.ofList (scriptOf (ts.map TableDef.creation))

/-- **The schema of a script of table definitions** is the one that is written. -/
theorem extract_script {ts : List TableDef} (h : ts ≠ []) :
    extract (script ts) =
        (.ok ⟨ts.map TableDef.meaning, ts.flatMap TableDef.relationships⟩, []) ∧
      (ts.map TableDef.meaning).map Table.id = ts.map fun t => String.ofList t.name.lower := by
  have hp : progressOf (script ts).toList =
      ⟨ts.map TableDef.meaning, ts.flatMap TableDef.relationships, []⟩ := by
    rw [script, String.toList_ofList, progressOf_script]
    simp [List.flatMap_map, Function.comp_def, TableDef.draft_creation]
  constructor
  · obtain ⟨t, ts, rfl⟩ := List.exists_cons_of_ne_nil h
    rw [extract, hp]; rfl
  · rw [List.map_map]
    exact List.map_congr_left fun t _ => t.id_meaning

/-- A table with one column. -/
def authorDef : TableDef :=
  let number : ColumnDef := {
    name := .of "key_no" (by decide)
    type := .of "INT" (by decide)
    arguments := none
    primaryKey := some (.of "PRIMARY" (by decide) (by decide), .of "key" (by decide) (by decide))
    notNull := none
    reference := none
    name_free := by decide +kernel
    name_not_index := by decide +kernel
    type_free := by decide +kernel
    type_not_null := by decide +kernel
    arguments_digits := by simp }
  { create := .of "CREATE" (by decide) (by decide)
    table := .of "Table" (by decide) (by decide)
    name := .of "Author" (by decide)
    columns := [number]
    gap := ['\n']
    gap_blank := by decide }

/-- A table with names that look like keywords, and with a primary key of two columns, the first of
which references another table. -/
def shareDef : TableDef :=
  let check : ColumnDef := {
    name := .of "check" (by decide)
    type := .of "Numeric" (by decide)
    arguments := some "10,2".toList
    primaryKey := some (.of "PRIMARY" (by decide) (by decide), .of "key" (by decide) (by decide))
    notNull := some (.of "Not" (by decide) (by decide), .of "NULL" (by decide) (by decide))
    reference := some (.of "References" (by decide) (by decide),
      .of "Author" (by decide), .of "key_no" (by decide))
    name_free := by decide +kernel
    name_not_index := by decide +kernel
    type_free := by decide +kernel
    type_not_null := by decide +kernel
    arguments_digits := by simp }
  let position : ColumnDef := {
    name := .of "pos" (by decide)
    type := .of "point" (by decide)
    arguments := none
    primaryKey := some (.of "primary" (by decide) (by decide), .of "KEY" (by decide) (by decide))
    notNull := none
    reference := none
    name_free := by decide +kernel
    name_not_index := by decide +kernel
    type_free := by decide +kernel
    type_not_null := by decide +kernel
    arguments_digits := by simp }
  let text : ColumnDef := {
    name := .of "text" (by decide)
    type := .of "varchar" (by decide)
    arguments := some "80".toList
    primaryKey := none
    notNull := none
    reference := none
    name_free := by decide +kernel
    name_not_index := by decide +kernel
    type_free := by decide +kernel
    type_not_null := by decide +kernel
    arguments_digits := by simp }
  { create := .of "create" (by decide) (by decide)
    table := .of "table" (by decide) (by decide)
    name := .of "if" (by decide)
    columns := [check, position, text]
    gap := []
    gap_blank := by decide }

theorem extract_script_library : [authorDef, shareDef] ≠ [] ∧
    script [authorDef, shareDef] = "CREATE Table Author (key_no INT PRIMARY key);\n" ++
      "create table if (check Numeric(10,2) PRIMARY key Not NULL References Author(key_no), " ++
      "pos point primary KEY, text varchar(80));" ∧
    extract (script [authorDef, shareDef]) = (.ok ⟨
      [⟨"Author", [⟨"key_no", "int", true, false, false, none⟩]⟩,
        ⟨"if", [⟨"check", "numeric(10,2)", true, true, false, some ⟨"Author", "key_no"⟩⟩,
          ⟨"pos", "point", true, false, false, none⟩,
          ⟨"text", "varchar(80)", false, false, true, none⟩]⟩],
      [⟨"if", "check", "Author", "key_no"⟩]⟩, []) := by
  have hne : [authorDef, shareDef] ≠ [] := List.cons_ne_nil _ _
  refine ⟨hne, by decide +kernel, ?_⟩
  rw [(extract_script hne).1]
  decide +kernel

end ErCanvas.Sql
