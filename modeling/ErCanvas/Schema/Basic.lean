import ErCanvas.Text.Case.Lower

/-! # Schemas

A schema has tables, made of columns, and relationships between columns. Names and types are values of
a type `ν`: texts in a schema that has been extracted from a source, any values in one that has been
read from a stored document.

* `Column.make`: a column that references another is a foreign key, and a primary key is not
  nullable.
* `Table.id`: the name in lower case. -/

namespace ErCanvas

/-- The column of another table that a column refers to. -/
structure Reference (ν : Type) where
  table : ν
  column : ν
deriving DecidableEq, Repr

/-- A column of a table. -/
structure Column (ν : Type) where
  name : ν
  type : ν
  isPrimaryKey : Bool
  isForeignKey : Bool
  isNullable : Bool
  references : Option (Reference ν)
deriving DecidableEq, Repr

/-- A table. -/
structure Table (ν : Type) where
  name : String
  columns : List (Column ν)
deriving DecidableEq, Repr

/-- A foreign key, from the referencing column to the referenced one. -/
structure Relationship (ν : Type) where
  fromTable : ν
  fromColumn : ν
  toTable : ν
  toColumn : ν
deriving DecidableEq, Repr

/-- Tables with the relationships between them. -/
structure Schema (ν : Type) where
  tables : List (Table ν)
  relationships : List (Relationship ν)
deriving DecidableEq, Repr

variable {ν μ : Type}

namespace Column

/-- A new column. With references it is a foreign key; as a primary key it is not nullable. -/
def make (name type : ν) (isPrimaryKey isForeignKey isNullable : Bool)
    (references : Option (Reference ν)) : Column ν :=
  ⟨name, type, isPrimaryKey, isForeignKey || references.isSome, isNullable && !isPrimaryKey,
    references⟩

/-- The column as part of the primary key. -/
def markPrimaryKey (c : Column ν) : Column ν :=
  { c with isPrimaryKey := true, isNullable := false }

/-- The column as a foreign key to another column. -/
def markForeignKey (table column : ν) (c : Column ν) : Column ν :=
  { c with isForeignKey := true, references := some ⟨table, column⟩ }

/-- The relationship that a referencing column of `table` stands for. -/
def relationship? (table : ν) (c : Column ν) : Option (Relationship ν) :=
  c.references.map fun r => ⟨table, c.name, r.table, r.column⟩

end Column

/-- What the table is known by: its name in lower case. -/
def Table.id (t : Table ν) : String := Text.lower t.name

/-- The schema without tables. -/
def Schema.empty : Schema ν := ⟨[], []⟩

/-! ### Other kinds of names -/

def Reference.map (f : ν → μ) (r : Reference ν) : Reference μ := ⟨f r.table, f r.column⟩

def Column.map (f : ν → μ) (c : Column ν) : Column μ :=
  ⟨f c.name, f c.type, c.isPrimaryKey, c.isForeignKey, c.isNullable, c.references.map (·.map f)⟩

def Table.map (f : ν → μ) (t : Table ν) : Table μ := ⟨t.name, t.columns.map (·.map f)⟩

def Relationship.map (f : ν → μ) (r : Relationship ν) : Relationship μ :=
  ⟨f r.fromTable, f r.fromColumn, f r.toTable, f r.toColumn⟩

def Schema.map (f : ν → μ) (s : Schema ν) : Schema μ :=
  ⟨s.tables.map (·.map f), s.relationships.map (·.map f)⟩

/-! ### Columns by name -/

/-- The two names are the same but for case. -/
def sameName (a b : String) : Bool := Text.lower a == Text.lower b

/-- Changes the first column with the name, if there is one. -/
def markFirst (name : String) (change : Column String → Column String) :
    List (Column String) → List (Column String)
  | [] => []
  | c :: rest => if sameName c.name name then change c :: rest else c :: markFirst name change rest

end ErCanvas
