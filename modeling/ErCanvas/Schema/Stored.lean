import ErCanvas.Json.Shown
import ErCanvas.Schema.Basic

/-! # Stored schemas

The form in which a schema is kept in a document, and the way back. A stored schema may hold values
of any kind where names are expected; only the name of a table has to be a text. What is missing or
of a wrong kind is a fault. -/

namespace ErCanvas

open Json (entry entryD)

/-! ### Into a document -/

def Reference.toJson (r : Reference Json) : Json :=
  .obj [("table", r.table), ("column", r.column)]

def Column.toJson (c : Column Json) : Json :=
  .obj <| [("name", c.name), ("type", c.type), ("isPrimaryKey", .bool c.isPrimaryKey),
    ("isForeignKey", .bool c.isForeignKey), ("isNullable", .bool c.isNullable)] ++
    (c.references.map fun r => ("references", r.toJson)).toList

def Table.toJson (t : Table Json) : Json :=
  .obj [("id", .str t.id), ("name", .str t.name), ("columns", .arr (t.columns.map Column.toJson))]

/-- What a relationship is known by: its four names, joined by underscores. -/
def Relationship.id (r : Relationship Json) : String :=
  r.fromTable.text ++ "_" ++ r.fromColumn.text ++ "_" ++ r.toTable.text ++ "_" ++ r.toColumn.text

/-- A relationship that is known by `id`. -/
def Relationship.toJsonAs (id : Json) (r : Relationship Json) : Json :=
  .obj [("id", id), ("fromTable", r.fromTable), ("fromColumn", r.fromColumn),
    ("toTable", r.toTable), ("toColumn", r.toColumn)]

def Relationship.toJson (r : Relationship Json) : Json := r.toJsonAs (.str r.id)

def Schema.toJson (s : Schema Json) : Json :=
  .obj [("tables", .arr (s.tables.map Table.toJson)),
    ("relationships", .arr (s.relationships.map Relationship.toJson))]

/-- A schema of texts as it is stored. -/
def Schema.stored (s : Schema String) : Schema Json := s.map Json.str

/-- The schemas show the same data. -/
def Schema.same (s t : Schema Json) : Bool := s.toJson.same t.toJson

/-! ### From a document -/

namespace Json

/-- A name in lower case. -/
def lower : Json → Outcome String
  | str s => .ok (Text.lower s)
  | v => .error (.missingMember v.kind "lower")

end Json

/-- A reference; one that counts as false is none. -/
def Reference.ofJson? (v : Json) : Outcome (Option (Reference Json)) :=
  if v.isTruthy then do
    let table ← v.entry "table"
    let column ← v.entry "column"
    return some ⟨table, column⟩
  else return none

def Column.ofJson (v : Json) : Outcome (Column Json) := do
  let references ← Reference.ofJson? (← v.entryD "references" .null)
  let name ← v.entry "name"
  let type ← v.entryD "type" (.str "text")
  let isPrimaryKey ← v.entryD "isPrimaryKey" (.bool false)
  let isForeignKey ← v.entryD "isForeignKey" (.bool false)
  let isNullable ← v.entryD "isNullable" (.bool true)
  return Column.make name type isPrimaryKey.isTruthy isForeignKey.isTruthy isNullable.isTruthy
    references

/-- Reads the members of a value one after the other. -/
def Json.mapMembers {α : Type} (f : Json → Outcome α) (v : Json) : Outcome (List α) := do
  (← v.members).mapM f

/-- The name of a table, which has to be a text. -/
def Table.nameOf : Json → Outcome String
  | .str s => .ok s
  | v => .error (.missingMember v.kind "lower")

def Table.ofJson (v : Json) : Outcome (Table Json) := do
  let name ← v.entry "name"
  let columns ← (← v.entryD "columns" (.arr [])).mapMembers Column.ofJson
  return ⟨← Table.nameOf name, columns⟩

def Relationship.ofJson (v : Json) : Outcome (Relationship Json) := do
  let fromTable ← v.entry "fromTable"
  let fromColumn ← v.entry "fromColumn"
  let toTable ← v.entry "toTable"
  let toColumn ← v.entry "toColumn"
  return ⟨fromTable, fromColumn, toTable, toColumn⟩

def Schema.ofJson (v : Json) : Outcome (Schema Json) := do
  let tables ← (← v.entry "tables").mapMembers Table.ofJson
  let relationships ← (← v.entryD "relationships" (.arr [])).mapMembers Relationship.ofJson
  return ⟨tables, relationships⟩

/-! ### Look-up -/

/-- The table of that name or id; case does not count. -/
def Schema.table? (s : Schema Json) (name : Json) : Outcome (Option (Table Json)) := do
  let id ← name.lower
  return s.tables.find? (·.id == id)

/-- The place of the first column whose name in lower case is `wanted`. -/
def columnIndexFrom (wanted : String) : Nat → List (Column Json) → Outcome (Option Nat)
  | _, [] => .ok none
  | i, c :: rest => do
    if (← c.name.lower) == wanted then return some i
    else columnIndexFrom wanted (i + 1) rest

/-- The place of the first column of that name; case does not count. -/
def Table.columnIndex? (t : Table Json) (name : Json) : Outcome (Option Nat) := do
  columnIndexFrom (← name.lower) 0 t.columns

end ErCanvas
