import ErCanvas.Canvas.Rect
import ErCanvas.Diagram.Basic

/-! # Stores of shared objects

Columns, tables and the rest may be shared: a column may belong to several tables, and a table to
several schemas. A store keeps each such object in a cell of its own, and objects refer to each other by
the places of their cells. An attribute may have been set to any value; then the object holds that
value where it would hold other objects. An object may also have been given attributes that its kind
does not have; they are kept beside its cell.

* `Members`: what a table or a schema is made of. Once fixed, nothing can be appended.
* `Cell`: an object. Columns and tables may be frozen; a frozen object rejects all changes.
* `Additions`: what an object has been given beside what its kind has.
* `Store.alloc`, `Store.write`, `Store.add`: the only ways to change a store. -/

namespace ErCanvas

/-- The place of an object in a store. -/
abbrev Ref := Nat

/-- What stands where an object is expected. -/
inductive Member where
  | object (r : Ref)
  | plain (v : Json)
deriving Inhabited

/-- What stands where a sequence of objects is expected. -/
inductive Members where
  /-- A sequence that can be appended to. -/
  | growing (items : List Member)
  /-- A sequence that stays as it is. -/
  | fixed (items : List Member)
  /-- A value that is no sequence of objects. -/
  | plain (v : Json)

namespace Members

/-- The objects at the places, in order. -/
def ofRefs (rs : List Ref) : Members := growing (rs.map .object)

/-- A value that an attribute is set to. -/
def ofJson : Json → Members
  | .arr items => growing (items.map .plain)
  | v => plain v

/-- The members one after the other. -/
def items : Members → Outcome (List Member)
  | growing items | fixed items => .ok items
  | plain v => v.members.map (·.map .plain)

/-- The number of members. -/
def count (ms : Members) : Outcome Nat := ms.items.map List.length

/-- There are no members. -/
def isEmpty : Members → Bool
  | growing items | fixed items => items.isEmpty
  | plain v => !v.isTruthy

/-- The name of the kind of sequence, as messages give it. -/
def kind : Members → String
  | growing _ => "list"
  | fixed _ => "tuple"
  | plain v => v.kind

/-- The members of a sequence that can be appended to. -/
def growable : Members → Outcome (List Member)
  | growing items => .ok items
  | ms => .error (.missingMember ms.kind "append")

end Members

/-- A column in a store. References are a pair of names, or a value that counts as false. -/
structure ColumnObject where
  name : Json
  type : Json
  isPrimaryKey : Json
  isForeignKey : Json
  isNullable : Json
  references : Json
  isFrozen : Bool

/-- A table in a store. -/
structure TableObject where
  name : Json
  id : Json
  columns : Members
  isFrozen : Bool

/-- A schema in a store. -/
structure SchemaObject where
  tables : Members
  relationships : Members

/-- A diagram in a store. -/
structure DiagramObject where
  version : Json
  schema : Member
  positions : Json
  zoom : Json
  pan : Json

/-- An object in a store. -/
inductive Cell where
  | column (c : ColumnObject)
  | table (t : TableObject)
  | relationship (id : Json) (r : Relationship Json)
  | schema (s : SchemaObject)
  | diagram (d : DiagramObject)
  | rect (r : Rect)
deriving Inhabited

/-- The name of an object's kind, as messages give it. -/
def Cell.kind : Cell → String
  | column _ => "Column"
  | table _ => "Table"
  | relationship .. => "Relationship"
  | schema _ => "Schema"
  | diagram _ => "DiagramDocument"
  | rect _ => "Rect"

/-- The fault of an object that has no such member. -/
def Cell.lacks (c : Cell) (member : String) : Fault := .missingMember c.kind member

/-- What an object can be asked to do. -/
inductive Operation where
  /-- To give its document form. -/
  | form
  | freeze
  | markPrimaryKey
  | markForeignKey
  /-- To find a column by its name. -/
  | column
  /-- To find the index of a column by its name. -/
  | columnIndex
  /-- To find a table by its name. -/
  | table
  | isEmpty
deriving DecidableEq, Repr

/-- The name of an operation, as messages give it. -/
def Operation.name : Operation → String
  | form => "to_dict"
  | freeze => "freeze"
  | markPrimaryKey => "mark_primary_key"
  | markForeignKey => "mark_foreign_key"
  | column => "get_column"
  | columnIndex => "column_index"
  | table => "get_table"
  | isEmpty => "is_empty"

/-- The fault of an object that cannot be asked for the operation. -/
def Cell.cannot (c : Cell) (o : Operation) : Fault := c.lacks o.name

/-- What an object has been given beside what its kind has. Look-ups read these attributes where the
kind has none of that name. An operation whose name a value has been given to is hidden by it. -/
structure Additions where
  name : Option Json := none
  id : Option Json := none
  columns : Option Members := none
  hidden : List Operation := []

/-- Objects by their places, and what they have been given. -/
structure Store where
  cells : List Cell
  additions : List (Ref × Additions)

namespace Store

def empty : Store := ⟨[], []⟩

/-- The object at a place. -/
def cell (s : Store) (r : Ref) : Cell := s.cells.getD r default

/-- What the object at a place has been given. -/
def added (s : Store) (r : Ref) : Additions := (s.additions.lookup r).getD {}

/-- The store with one more object, and its place. -/
def alloc (s : Store) (c : Cell) : Ref × Store :=
  (s.cells.length, { s with cells := s.cells ++ [c] })

/-- The store with another object at a place. -/
def write (s : Store) (r : Ref) (c : Cell) : Store := { s with cells := s.cells.set r c }

/-- The store with other additions to the object at a place. -/
def add (s : Store) (r : Ref) (a : Additions) : Store :=
  { s with additions := (r, a) :: s.additions }

/-- An object can be asked for an operation only if nothing hides it. -/
def ask (s : Store) (r : Ref) (o : Operation) : Outcome Unit :=
  if o ∈ (s.added r).hidden then .error .wrongKind else .ok ()

/-- The name of an object, its own or a given one. -/
def name (s : Store) (r : Ref) : Outcome Json :=
  match s.cell r, (s.added r).name with
  | .column c, _ => .ok c.name
  | .table t, _ => .ok t.name
  | _, some v => .ok v
  | c, none => .error (c.lacks "name")

/-- What an object is known by, its own id or a given one. -/
def id (s : Store) (r : Ref) : Outcome Json :=
  match s.cell r, (s.added r).id with
  | .table t, _ => .ok t.id
  | .relationship i _, _ => .ok i
  | _, some v => .ok v
  | c, none => .error (c.lacks "id")

/-- The columns of an object, its own or given ones. -/
def columns (s : Store) (r : Ref) : Outcome Members :=
  match s.cell r, (s.added r).columns with
  | .table t, _ => .ok t.columns
  | _, some ms => .ok ms
  | c, none => .error (c.lacks "columns")

/-- A bound on how deep the objects of a store can be nested in each other. -/
def depth (s : Store) : Nat := s.cells.length + 1

end Store

/-- An operation on a store. What it has done before it failed stays done. -/
abbrev Change (α : Type) := ExceptT Fault (StateM Store) α

namespace Change

/-- The object at a place. -/
def read (r : Ref) : Change Cell := do return (← get).cell r

/-- Puts another object at a place. -/
def write (r : Ref) (c : Cell) : Change Unit := modify (·.write r c)

/-- Puts other additions to the object at a place. -/
def add (r : Ref) (a : Additions) : Change Unit := modify (·.add r a)

/-- Makes a new object. -/
def alloc (c : Cell) : Change Ref := modifyGet (·.alloc c)

/-- Takes over a result that needs no store. -/
def lift {α : Type} (o : Outcome α) : Change α := liftM o

/-- Goes on only if the object can be asked for the operation. -/
def ask (r : Ref) (o : Operation) : Change Unit := do lift ((← get).ask r o)

end Change

end ErCanvas
