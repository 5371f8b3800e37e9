import ErCanvas.Json.Reader
import ErCanvas.Note
import ErCanvas.Schema.Basic

/-! # Declarative documents

A schema may be declared in a document: an object with an array of tables, each an object with a name
and columns, each column an object with a name and, if need be, a type, a foreign key and flags. A
document of another shape is refused as a whole, with the first place that does not fit.

* `declared`: the schema of the tables' array.
* `extract`: the schema of a text. -/

namespace ErCanvas.Declaration

/-- How the tables' array fails to have the expected shape. -/
inductive Misfit where
  | unnamedTable (place : Nat)
  | columnsNoArray (table : String)
  | unnamedColumn (table : String)
  | badForeignKey (table column : String)
  | badType (table column : String)
deriving DecidableEq, Repr

/-- The wording of a misfit. -/
def Misfit.message : Misfit → String
  | unnamedTable place => "table #" ++ toString place ++ " must be an object with a name"
  | columnsNoArray table => "columns of table " ++ table ++ " must be an array"
  | unnamedColumn table => "every column of table " ++ table ++ " needs a name"
  | badForeignKey table column =>
    "foreignKey of " ++ table ++ "." ++ column ++ " needs string table and column"
  | badType table column => "type of " ++ table ++ "." ++ column ++ " must be a string"

/-! ### Columns -/

/-- The entry at a key, null if there is none. -/
def field (key : String) (entries : List (String × Json)) : Json :=
  (Json.find? key entries).getD .null

/-- The foreign key of a column: none if it counts as false. -/
def reference (table column : String) (v : Json) : Except Misfit (Option (Reference String)) :=
  if v.isTruthy then
    match v with
    | .obj entries =>
      match field "table" entries, field "column" entries with
      | .str t, .str c => .ok (some ⟨t, c⟩)
      | _, _ => .error (.badForeignKey table column)
    | _ => .error (.badForeignKey table column)
  else .ok none

/-- The type of a column, `text` if none is declared. -/
def type (table column : String) (entries : List (String × Json)) : Except Misfit String :=
  match Json.find? "type" entries with
  | none => .ok "text"
  | some (.str t) => .ok t
  | some _ => .error (.badType table column)

/-- A column is nullable unless it is declared not to be, in so many words. -/
def isNullable (entries : List (String × Json)) : Bool :=
  match field "nullable" entries with
  | .bool false => false
  | _ => true

/-- The column of `table` that a value declares. -/
def column (table : String) (v : Json) : Except Misfit (Column String) :=
  match v with
  | .obj entries =>
    match field "name" entries with
    | .str name => do
      let references ← reference table name (field "foreignKey" entries)
      let type ← type table name entries
      return Column.make name type (field "primaryKey" entries).isTruthy false (isNullable entries)
        references
    | _ => .error (.unnamedColumn table)
  | _ => .error (.unnamedColumn table)

/-! ### Tables -/

/-- The declared columns of a table; none need be declared. -/
def columnValues (table : String) (entries : List (String × Json)) : Except Misfit (List Json) :=
  match Json.find? "columns" entries with
  | none => .ok []
  | some (.arr items) => .ok items
  | some _ => .error (.columnsNoArray table)

/-- The table that the value at some place declares. -/
def table (place : Nat) (v : Json) : Except Misfit (Table String) :=
  match v with
  | .obj entries =>
    match field "name" entries with
    | .str name => do
      let values ← columnValues name entries
      let columns ← values.mapM (column name)
      return ⟨name, columns⟩
    | _ => .error (.unnamedTable place)
  | _ => .error (.unnamedTable place)

/-- The tables from some place on. -/
def tablesFrom (place : Nat) : List Json → Except Misfit (List (Table String))
  | [] => .ok []
  | v :: rest => do
    let t ← table place v
    return t :: (← tablesFrom (place + 1) rest)

/-- The relationships of the referencing columns of a table. -/
def relationshipsOf (t : Table String) : List (Relationship String) :=
  t.columns.filterMap (·.relationship? t.name)

/-- The schema that an array of tables declares. -/
def declared (values : List Json) : Except Misfit (Schema String) := do
  let tables ← tablesFrom 0 values
  return ⟨tables, tables.flatMap relationshipsOf⟩

/-! ### Documents -/

/-- Why a text declares no schema. -/
inductive Defect where
  /-- The text is not a document. -/
  | unreadable (reason : String)
  | noTables
  | misfit (m : Misfit)
deriving DecidableEq, Repr

/-- The wording of a defect. -/
def Defect.message : Defect → String
  | unreadable reason => "JSON parse error: " ++ reason
  | noTables => "Invalid JSON: missing tables array"
  | misfit m => "Invalid JSON: " ++ m.message

/-- The schema that a document declares. -/
def ofDocument : Json → Except Defect (Schema String)
  | .obj entries =>
    match Json.find? "tables" entries with
    | some (.arr values) => (declared values).mapError .misfit
    | _ => .error .noTables
  | _ => .error .noTables

/-- What is noted about a refused document. -/
def notesOf : Except Defect (Schema String) → List Note
  | .error (.misfit m) => [.rejected m.message]
  | _ => []

/-- The schema of a value that should be the text of a document, and the notes. No more than `depth`
lists and objects may be open in the text at once. -/
def extractFrom (v : Json) (depth : Nat := Json.depthLimit) :
    Except Defect (Schema String) × List Note :=
  let r := match Json.readValue v depth with
    | .error reason => .error (.unreadable reason)
    | .ok document => ofDocument document
  (r, notesOf r)

/-- The schema that a text declares, and the notes. -/
def extract (text : String) : Except Defect (Schema String) × List Note := extractFrom (.str text)

end ErCanvas.Declaration
