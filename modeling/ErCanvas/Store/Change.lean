import ErCanvas.Store.Shown

/-! # Changes of stored objects

Objects are made, marked, appended to, frozen and looked through. A frozen object rejects every change
of its attributes with a fault and stays as it is. A table freezes its columns with itself, and a
schema freezes its tables when it is made.

* `Change.freeze`: freezes an object and what it is made of.
* `Change.assign`: sets an attribute to a value; what has been derived from the old value stays. An
  object may be given attributes that its kind does not have. -/

namespace ErCanvas

/-- An attribute of an object. -/
inductive Field where
  | name | type | isPrimaryKey | isForeignKey | isNullable | references
  | id | columns
  | fromTable | fromColumn | toTable | toColumn
  | tables | relationships
  | version | schema | positions | zoom | pan
  | x | y | width | height
  /-- Whether the object is frozen. -/
  | frozen
  /-- The name of an operation, which the value then hides. -/
  | operation (o : Operation)
  /-- What makes the object one of its kind: no value can take its place. -/
  | kind
  /-- What refers to the object without holding it; it can only be read. -/
  | weakReferences
  /-- An attribute that no object shows. -/
  | other
deriving DecidableEq, Repr

/-! ### Attributes -/

def ColumnObject.assign (c : ColumnObject) (f : Field) (v : Json) : ColumnObject :=
  match f with
  | .name => { c with name := v }
  | .type => { c with type := v }
  | .isPrimaryKey => { c with isPrimaryKey := v }
  | .isForeignKey => { c with isForeignKey := v }
  | .isNullable => { c with isNullable := v }
  | .references => { c with references := v }
  | .frozen => { c with isFrozen := v.isTruthy }
  | _ => c

def TableObject.assign (t : TableObject) (f : Field) (v : Json) : TableObject :=
  match f with
  | .name => { t with name := v }
  | .id => { t with id := v }
  | .columns => { t with columns := .ofJson v }
  | .frozen => { t with isFrozen := v.isTruthy }
  | _ => t

def SchemaObject.assign (s : SchemaObject) (f : Field) (v : Json) : SchemaObject :=
  match f with
  | .tables => { s with tables := .ofJson v }
  | .relationships => { s with relationships := .ofJson v }
  | _ => s

def DiagramObject.assign (d : DiagramObject) (f : Field) (v : Json) : DiagramObject :=
  match f with
  | .version => { d with version := v }
  | .schema => { d with schema := .plain v }
  | .positions => { d with positions := v }
  | .zoom => { d with zoom := v }
  | .pan => { d with pan := v }
  | _ => d

def Relationship.assign (r : Relationship Json) (f : Field) (v : Json) : Relationship Json :=
  match f with
  | .fromTable => { r with fromTable := v }
  | .fromColumn => { r with fromColumn := v }
  | .toTable => { r with toTable := v }
  | .toColumn => { r with toColumn := v }
  | _ => r

def Rect.assign (r : Rect) (f : Field) (v : Json) : Rect :=
  match f with
  | .x => { r with x := v }
  | .y => { r with y := v }
  | .width => { r with width := v }
  | .height => { r with height := v }
  | _ => r

namespace Cell

/-- The object with an attribute set to a value. -/
def assign (f : Field) (v : Json) : Cell → Cell
  | column c => column (c.assign f v)
  | table t => table (t.assign f v)
  | relationship id r => if f = .id then relationship v r else relationship id (r.assign f v)
  | schema s => schema (s.assign f v)
  | diagram d => diagram (d.assign f v)
  | rect r => rect (r.assign f v)

/-- The fault of changing the object, if it is frozen. -/
def frozenFault? : Cell → Option Fault
  | column c => if c.isFrozen then some (.readOnly "Column" c.name.text) else none
  | table t => if t.isFrozen then some (.readOnly "Table" t.name.text) else none
  | _ => none

/-- The fault of setting the attribute, whatever the value: of a frozen object no attribute can be
set, of another object all but a few. -/
def assignFault? (c : Cell) (f : Field) : Option Fault :=
  c.frozenFault?.or <|
    match f with
    | .kind => some .wrongKind
    | .weakReferences => some (.notWritable c.kind "__weakref__")
    | _ => none

end Cell

/-- The additions with an attribute set to a value. -/
def Additions.assign (a : Additions) (f : Field) (v : Json) : Additions :=
  match f with
  | .name => { a with name := some v }
  | .id => { a with id := some v }
  | .columns => { a with columns := some (.ofJson v) }
  | .operation o => { a with hidden := o :: a.hidden }
  | _ => a

/-- The column as part of the primary key. -/
def ColumnObject.markPrimaryKey (c : ColumnObject) : ColumnObject :=
  { c with isPrimaryKey := .bool true, isNullable := .bool false }

/-- The column as a foreign key to another column. -/
def ColumnObject.markForeignKey (table column : Json) (c : ColumnObject) : ColumnObject :=
  { c with isForeignKey := .bool true, references := .arr [table, column] }

/-- A column as it is stored, not frozen. -/
def ColumnObject.ofColumn (c : Column Json) : ColumnObject :=
  ⟨c.name, c.type, .bool c.isPrimaryKey, .bool c.isForeignKey, .bool c.isNullable,
    match c.references with
    | some r => .arr [r.table, r.column]
    | none => .null, false⟩

/-- A new column from values. With references it is a foreign key; as a primary key it is not
nullable. -/
def ColumnObject.make (name type isPrimaryKey isForeignKey isNullable references : Json) :
    Outcome ColumnObject := do
  let pair ← if references.isTruthy then references.members.map Json.arr else .ok Json.null
  let isForeignKey := if isForeignKey.isTruthy then isForeignKey else
    .bool (match references with | .null => false | _ => true)
  let isNullable := if isNullable.isTruthy then .bool !isPrimaryKey.isTruthy else isNullable
  return ⟨name, type, isPrimaryKey, isForeignKey, isNullable, pair, false⟩

/-- Freezes a member, given how objects are frozen. -/
def Member.freezeWith (freeze : Ref → Change Unit) : Member → Change Unit
  | object r => freeze r
  | plain v => throw (.missingMember v.kind Operation.freeze.name)

namespace Change

/-! ### Making objects -/

/-- A new table with the given members. -/
def newTable (name : Json) (columns : Members) : Change Ref := do
  let id ← lift name.lower
  alloc (.table ⟨name, .str id, columns, false⟩)

/-- A new table with new columns. -/
def copyTable (t : Table Json) : Change Ref := do
  let columns ← t.columns.mapM fun c => alloc (.column (.ofColumn c))
  newTable (.str t.name) (.ofRefs columns)

/-- A new relationship. -/
def newRelationship (r : Relationship Json) : Change Ref := alloc (.relationship (.str r.id) r)

/-! ### Freezing -/

/-- Freezes an object that is nested less than `depth` deep, with what it is made of. A table that
is frozen stays as it is. -/
def freezeWithin : Nat → Ref → Change Unit
  | 0, _ => throw .endless
  | depth + 1, r => do
    ask r .freeze
    match ← read r with
    | .column c => write r (.column { c with isFrozen := true })
    | .table t =>
      if !t.isFrozen then
        let items ← lift t.columns.items
        write r (.table { t with columns := .fixed items })
        items.forM (·.freezeWith (freezeWithin depth))
        write r (.table { t with columns := .fixed items, isFrozen := true })
    | c => throw (c.cannot .freeze)

/-- Freezes an object with what it is made of. -/
def freeze (r : Ref) : Change Unit := do freezeWithin (← get).depth r

/-- A new schema; its tables are frozen. -/
def newSchema (tables relationships : List Ref) : Change Ref := do
  tables.forM freeze
  alloc (.schema ⟨.fixed (tables.map .object), .fixed (relationships.map .object)⟩)

/-- A new schema with new tables and relationships. -/
def copySchema (s : Schema Json) : Change Ref := do
  let tables ← s.tables.mapM copyTable
  let relationships ← s.relationships.mapM newRelationship
  newSchema tables relationships

/-- A new diagram of a schema. -/
def newDiagram (schema : Ref) (positions zoom pan version : Json) : Change Ref := do
  let positions ← lift (Diagram.positionsOf positions)
  let zoom ← lift (Diagram.clampZoom zoom)
  let pan ← lift (Diagram.panOf pan)
  alloc (.diagram ⟨version, .object schema, Diagram.positionsJson positions, zoom, pan.toJson⟩)

/-- A new diagram with a new schema. -/
def copyDiagram (d : Diagram) : Change Ref := do
  let schema ← copySchema d.schema
  alloc (.diagram ⟨d.version, .object schema, Diagram.positionsJson d.positions, d.zoom,
    d.pan.toJson⟩)

/-! ### Changing objects -/

/-- Sets an attribute of an object that is not frozen. -/
def assign (r : Ref) (f : Field) (v : Json) : Change Unit := do
  let c ← read r
  match c.assignFault? f with
  | some fault => throw fault
  | none =>
    write r (c.assign f v)
    add r (((← get).added r).assign f v)

/-- Changes a column that is not frozen. -/
def changeColumn (o : Operation) (change : ColumnObject → ColumnObject) (r : Ref) :
    Change Unit := do
  ask r o
  match ← read r with
  | .column c =>
    match (Cell.column c).frozenFault? with
    | some fault => throw fault
    | none => write r (.column (change c))
  | c => throw (c.cannot o)

def markPrimaryKey : Ref → Change Unit :=
  changeColumn .markPrimaryKey ColumnObject.markPrimaryKey

def markForeignKey (table column : Json) : Ref → Change Unit :=
  changeColumn .markForeignKey (ColumnObject.markForeignKey table column)

/-- Puts other columns in the place of those of an object. -/
def setColumns (r : Ref) (columns : Members) : Change Unit := do
  match ← read r with
  | .table t => write r (.table { t with columns })
  | _ => add r { (← get).added r with columns }

/-- Appends a column to a table. The column is looked at only if the table grows. -/
def append (r : Ref) (column : Outcome Ref) : Change Unit := do
  let columns ← lift ((← get).columns r)
  let items ← lift columns.growable
  let c ← lift column
  setColumns r (.growing (items ++ [.object c]))

end Change

/-! ### Looking through objects -/

namespace Store

/-- The place of the first of the members, counted from `i`, that has the name. -/
def indexFrom (s : Store) (wanted : String) : Nat → List Member → Outcome (Option (Nat × Ref))
  | _, [] => .ok none
  | _, .plain v :: _ => .error (.missingMember v.kind "name")
  | i, .object r :: rest => do
    if (← (← s.name r).lower) == wanted then return some (i, r)
    else s.indexFrom wanted (i + 1) rest

/-- The first column of a table with the name, and its index; case does not count. The operation asked
for shows one of the two. -/
def column? (s : Store) (o : Operation) (r : Ref) (name : Json) :
    Outcome (Option (Nat × Ref)) := do
  s.ask r o
  match s.cell r with
  | .table t =>
    let wanted ← name.lower
    s.indexFrom wanted 0 (← t.columns.items)
  | c => throw (c.cannot o)

/-- The first of the members that is known by `id`. -/
def findById (s : Store) (id : String) : List Member → Outcome (Option Ref)
  | [] => .ok none
  | .plain v :: _ => .error (.missingMember v.kind "id")
  | .object r :: rest => do
    if (← s.id r).same (.str id) then return some r else s.findById id rest

/-- The first table of a schema with that name or id; case does not count. -/
def table? (s : Store) (r : Ref) (name : Json) : Outcome (Option Ref) := do
  s.ask r .table
  match s.cell r with
  | .schema sc =>
    let id ← name.lower
    s.findById id (← sc.tables.items)
  | c => throw (c.cannot .table)

/-- A schema without tables and relationships. -/
def isEmpty (s : Store) (r : Ref) : Outcome Bool := do
  s.ask r .isEmpty
  match s.cell r with
  | .schema sc => return sc.tables.isEmpty && sc.relationships.isEmpty
  | c => throw (c.cannot .isEmpty)

end Store

end ErCanvas
