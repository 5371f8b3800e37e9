import ErCanvas.Diagram.Document
import ErCanvas.Store.Change

/-! # Sessions on a store

A store is worked on step by step, its objects going by names. A name may be given again; then it
stands for the new object. A step that fails gives no name. -/

namespace ErCanvas.Store

/-- What a new object is made from: values, and the names of other objects. -/
inductive Source where
  | column (name type isPrimaryKey isForeignKey isNullable references : Json)
  | table (name : Json) (columns : List String)
  | relationship (r : Relationship Json)
  | schema (tables relationships : List String)
  | diagram (schema : String) (positions zoom pan version : Json)
  /-- The document form of an object. -/
  | columnForm (v : Json)
  | tableForm (v : Json)
  | relationshipForm (v : Json)
  | schemaForm (v : Json)
  | diagramForm (v : Json)
  | rectForm (v : Json)

/-- A step of a session. -/
inductive Step where
  /-- Makes an object. -/
  | make (name : Option String) (source : Source)
  | markPrimaryKey (target : String)
  | markForeignKey (target : String) (table column : Json)
  | append (target column : String)
  | freeze (target : String)
  | assign (target : String) (field : Field) (value : Json)
  /-- Looks a column up, and names it if it is there. -/
  | column (target : String) (wanted : Json) (name : Option String)
  /-- Looks a table up, and names it if it is there. -/
  | table (target : String) (wanted : Json) (name : Option String)
  | columnIndex (target : String) (wanted : Json)
  | isEmpty (target : String)
  | form (target : String)
  | shown (target : String)
  | same (target other : String)

/-- A store with the names of its objects. -/
structure Session where
  store : Store
  names : List (String × Ref)

namespace Session

def empty : Session := ⟨.empty, []⟩

/-- The object of a name. -/
def lookup (names : List (String × Ref)) (name : String) : Outcome Ref :=
  match names.lookup name with
  | some r => .ok r
  | none => .error (.missingKey name)

/-- Makes an object. -/
def build (names : List (String × Ref)) : Source → Change Ref
  | .column name type isPrimaryKey isForeignKey isNullable references => do
    let c ← Change.lift <|
      ColumnObject.make name type isPrimaryKey isForeignKey isNullable references
    Change.alloc (.column c)
  | .table name columns => do
    let columns ← Change.lift (columns.mapM (lookup names))
    Change.newTable name (.ofRefs columns)
  | .relationship r => Change.newRelationship r
  | .schema tables relationships => do
    let tables ← Change.lift (tables.mapM (lookup names))
    let relationships ← Change.lift (relationships.mapM (lookup names))
    Change.newSchema tables relationships
  | .diagram schema positions zoom pan version => do
    let schema ← Change.lift (lookup names schema)
    Change.newDiagram schema positions zoom pan version
  | .columnForm v => do
    Change.alloc (.column (.ofColumn (← Change.lift (Column.ofJson v))))
  | .tableForm v => do Change.copyTable (← Change.lift (Table.ofJson v))
  | .relationshipForm v => do Change.newRelationship (← Change.lift (Relationship.ofJson v))
  | .schemaForm v => do Change.copySchema (← Change.lift (Schema.ofJson v))
  | .diagramForm v => do Change.copyDiagram (← Change.lift (Diagram.ofJson v))
  | .rectForm v => do Change.alloc (.rect (← Change.lift (Rect.ofJson v)))

/-- What a step answers, and the object that it gives a name to. -/
structure Answer where
  value : Json
  named : Option (String × Ref)

/-- The document form of an object, as the answer of a step. -/
def formOf (r : Ref) (name : Option String) : Change Answer := do
  let value ← Change.lift ((← get).toJson r)
  return ⟨value, name.map (·, r)⟩

/-- Changes the object of a name, and answers its document form. -/
def changing (names : List (String × Ref)) (target : String) (change : Ref → Change Unit) :
    Change Answer := do
  let r ← Change.lift (lookup names target)
  change r
  formOf r none

/-- Looks at the object of a name. -/
def asking (names : List (String × Ref)) (target : String) (ask : Store → Ref → Outcome Json) :
    Change Answer := do
  let r ← Change.lift (lookup names target)
  let value ← Change.lift (ask (← get) r)
  return ⟨value, none⟩

/-- Looks an object up in the object of a name. -/
def finding (names : List (String × Ref)) (target : String) (name : Option String)
    (find : Store → Ref → Outcome (Option Ref)) : Change Answer := do
  let r ← Change.lift (lookup names target)
  match ← Change.lift (find (← get) r) with
  | some found => formOf found name
  | none => return ⟨.null, none⟩

/-- What a step does to the store, given the names. -/
def perform (names : List (String × Ref)) : Step → Change Answer
  | .make name source => do formOf (← build names source) name
  | .markPrimaryKey target => changing names target Change.markPrimaryKey
  | .markForeignKey target table column =>
    changing names target (Change.markForeignKey table column)
  | .append target column => changing names target (Change.append · (lookup names column))
  | .freeze target => changing names target Change.freeze
  | .assign target field value => changing names target (Change.assign · field value)
  | .column target wanted name => finding names target name fun s r => do
    return (← s.column? .column r wanted).map (·.2)
  | .table target wanted name => finding names target name fun s r => s.table? r wanted
  | .columnIndex target wanted => asking names target fun s r => do
    match ← s.column? .columnIndex r wanted with
    | some (i, _) => return .int i
    | none => return .int (-1)
  | .isEmpty target => asking names target fun s r => do return .bool (← s.isEmpty r)
  | .form target => asking names target Store.toJson
  | .shown target => asking names target fun s r => do return .str (← s.shown r)
  | .same target other => asking names target fun s r => do
    return .bool (← s.same r (← lookup names other))

/-- One step: what it answers, and the session after it. -/
def step (s : Session) (o : Step) : Outcome Json × Session :=
  match (perform s.names o).run s.store with
  | (.ok a, store) => (.ok a.value, ⟨store, a.named.toList ++ s.names⟩)
  | (.error f, store) => (.error f, ⟨store, s.names⟩)

/-- All steps in order, with their answers. -/
def run : Session → List Step → List (Outcome Json)
  | _, [] => []
  | s, o :: rest =>
    let (answer, s) := s.step o
    answer :: s.run rest

end Session

end ErCanvas.Store
