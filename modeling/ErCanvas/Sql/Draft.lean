import ErCanvas.Note
import ErCanvas.Sql.ColumnClause

/-! # Tables under construction

The clauses of a statement are applied to a table one after the other. A column clause adds a column,
a key clause marks columns that are there already, and foreign keys of either kind add
relationships. All other clauses change nothing but the notes. -/

namespace ErCanvas.Sql

/-- A table under construction, with the relationships and notes so far. -/
structure Draft where
  table : Table String
  relationships : List (Relationship String)
  notes : List Note

namespace Draft

/-- Changes the first column of a name. -/
def mark (d : Draft) (name : String) (change : Column String → Column String) : Draft :=
  { d with table := ⟨d.table.name, markFirst name change d.table.columns⟩ }

def note (d : Draft) (n : Note) : Draft := { d with notes := d.notes ++ [n] }

/-! ### Key clauses -/

/-- The names in parentheses behind the first occurrence of a phrase, and the rest. -/
def keyNames? (phrase : List (List Char)) (cs : List Char) :
    Option (List String × List Char) :=
  ((phrase? phrase cs).bind group?).map fun (inside, rest) => ((names inside).map String.ofList, rest)

/-- The columns of a primary key clause. -/
def primaryKey? (cs : List Char) : Option (List String) :=
  search? (fun cs => (keyNames? [primary, key] cs).map (·.1)) cs

/-- A foreign key clause: columns here, a table, and columns there. -/
structure ForeignKey where
  columns : List String
  table : String
  targets : List String

/-- The foreign key at the front of a text. -/
def foreignKeyHere? (cs : List Char) : Option ForeignKey :=
  match keyNames? [foreign, key] cs with
  | none => none
  | some (columns, rest) =>
    match ((keyword? references (skipBlanks rest)).bind blanks?).bind qualifiedName? with
    | none => none
    | some (table, rest) =>
      let targets := match group? rest with
        | some (inside, _) => (names inside).map String.ofList
        | none => []
      some ⟨columns, String.ofList table, targets⟩

/-- The columns here with their columns there; a column without one refers to its own name. -/
def ForeignKey.pairs (k : ForeignKey) : List (String × String) :=
  k.columns.zipIdx.map fun (c, i) => (c, k.targets.getD i c)

def applyPrimaryKey (d : Draft) (cs : List Char) : Draft :=
  ((primaryKey? cs).getD []).foldl (fun d name => d.mark name Column.markPrimaryKey) d

/-- One column of a foreign key: marked if it is there, related in any case. -/
def relate (table : String) (d : Draft) (pair : String × String) : Draft :=
  let d := d.mark pair.1 (Column.markForeignKey table pair.2)
  { d with relationships := d.relationships ++ [⟨d.table.name, pair.1, table, pair.2⟩] }

def applyForeignKey (d : Draft) (cs : List Char) : Draft :=
  match search? foreignKeyHere? cs with
  | none => d
  | some k => k.pairs.foldl (relate k.table) d

/-! ### Column clauses -/

def applyColumn (d : Draft) (cs : List Char) : Draft :=
  match column? cs with
  | none => d.note (.unrecognized d.table.name (String.ofList cs))
  | some c =>
    { d with
      table := ⟨d.table.name, d.table.columns ++ [c]⟩
      relationships := d.relationships ++ (c.relationship? d.table.name).toList }

/-! ### All clauses -/

/-- The draft after one more clause. -/
def apply (d : Draft) (cs : List Char) : Draft :=
  match classify cs with
  | .primaryKey => d.applyPrimaryKey cs
  | .foreignKey => d.applyForeignKey cs
  | .column => d.applyColumn cs
  | kind => d.note (.skipped kind.name d.table.name (String.ofList cs))

end Draft

end ErCanvas.Sql
