import ErCanvas.Store.Basic

/-! # Stored objects as they are shown

The document form of an object, its form in messages, and equality. Two objects of one kind are equal
when they hold the same data; objects of different kinds never are. Columns, relationships and
rectangles are compared by their document forms, the others part by part. Objects that contain each other
have no form; to find this out, the depth of the nesting is bounded.

* `Store.toJson`, `Store.shown`, `Store.same`. -/

namespace ErCanvas

/-- The item of a value at a place. -/
def Json.item (i : Nat) : Json → Outcome Json
  | .arr items => match items[i]? with
    | some v => .ok v
    | none => .error .outOfRange
  | .str s => match s.toList[i]? with
    | some c => .ok (.str c.toString)
    | none => .error .outOfRange
  | .obj _ => .error (.missingPlace i)
  | _ => .error .wrongKind

/-- A value is the same as itself, unless it is not a number. -/
def Json.sameAsItself : Json → Bool
  | .num n => n.same n
  | _ => true

namespace ColumnObject

/-- What the column references. -/
def reference? (c : ColumnObject) : Outcome (Option (Reference Json)) :=
  if c.references.isTruthy then do
    let table ← c.references.item 0
    let column ← c.references.item 1
    return some ⟨table, column⟩
  else return none

/-- The document form of the column. -/
def toJson (c : ColumnObject) : Outcome Json := do
  let reference ← c.reference?
  return .obj <| [("name", c.name), ("type", c.type), ("isPrimaryKey", c.isPrimaryKey),
    ("isForeignKey", c.isForeignKey), ("isNullable", c.isNullable)] ++
    (reference.map fun r => ("references", r.toJson)).toList

/-- The column in a message. -/
def shown (c : ColumnObject) : Outcome String := do
  let key := if c.isPrimaryKey.isTruthy then " [PK]" else ""
  let target := match ← c.reference? with
    | some r => " -> " ++ r.table.text ++ "." ++ r.column.text
    | none => ""
  return "Column(name=" ++ c.name.text ++ key ++ ", type=" ++ c.type.text ++ target ++ ")"

end ColumnObject

/-- The relationship in a message. -/
def Relationship.shown (r : Relationship Json) : String :=
  "Relationship(" ++ r.fromTable.text ++ "." ++ r.fromColumn.text ++ " -> " ++ r.toTable.text ++
    "." ++ r.toColumn.text ++ ")"

/-- The table in a message. -/
def TableObject.shown (t : TableObject) : Outcome String := do
  return "Table(name=" ++ t.name.text ++ ", columns=" ++ toString (← t.columns.count) ++ ")"

/-- The schema in a message. -/
def SchemaObject.shown (s : SchemaObject) : Outcome String := do
  return "Schema(tables=" ++ toString (← s.tables.count) ++ ", relationships=" ++
    toString (← s.relationships.count) ++ ")"

/-! ### Document form -/

/-- The document forms of members, given those of objects. -/
def Members.toJson (form : Ref → Outcome Json) (ms : Members) : Outcome Json := do
  let items ← (← ms.items).mapM fun
    | .object r => form r
    | .plain v => .error (.missingMember v.kind Operation.form.name)
  return .arr items

/-- The document form of a member, given those of objects. -/
def Member.toJson (form : Ref → Outcome Json) : Member → Outcome Json
  | object r => form r
  | plain v => .error (.missingMember v.kind Operation.form.name)

namespace Store

/-- The document form of an object that is nested less than `depth` deep. -/
def toJsonWithin (s : Store) : Nat → Ref → Outcome Json
  | 0, _ => .error .endless
  | depth + 1, r => do
    s.ask r .form
    match s.cell r with
    | .column c => c.toJson
    | .table t => do
      let columns ← t.columns.toJson (s.toJsonWithin depth)
      return .obj [("id", t.id), ("name", t.name), ("columns", columns)]
    | .relationship id rel => .ok (rel.toJsonAs id)
    | .schema sc => do
      let tables ← sc.tables.toJson (s.toJsonWithin depth)
      let relationships ← sc.relationships.toJson (s.toJsonWithin depth)
      return .obj [("tables", tables), ("relationships", relationships)]
    | .diagram d => do
      let schema ← d.schema.toJson (s.toJsonWithin depth)
      return .obj [("version", d.version), ("schema", schema), ("positions", d.positions),
        ("viewState", .obj [("zoom", d.zoom), ("pan", d.pan)])]
    | .rect rect => .ok rect.toJson

/-- The document form of an object. -/
def toJson (s : Store) (r : Ref) : Outcome Json := s.toJsonWithin s.depth r

/-! ### Messages -/

/-- An object in a message, if it is nested less than `depth` deep. -/
def shownWithin (s : Store) : Nat → Ref → Outcome String
  | 0, _ => .error .endless
  | depth + 1, r =>
    match s.cell r with
    | .column c => c.shown
    | .table t => t.shown
    | .relationship _ rel => .ok rel.shown
    | .schema sc => sc.shown
    | .diagram d => do
      let schema ← match d.schema with
        | .object r => s.shownWithin depth r
        | .plain v => .ok v.shown
      return "DiagramDocument(version=" ++ d.version.text ++ ", schema=" ++ schema ++ ", zoom=" ++
        d.zoom.text ++ ")"
    | .rect rect => .ok rect.shown

/-- An object in a message. -/
def shown (s : Store) (r : Ref) : Outcome String := s.shownWithin s.depth r

end Store

/-! ### Equality -/

/-- Compares members, given how objects compare. -/
def Member.same (eq : Ref → Ref → Outcome Bool) : Member → Member → Outcome Bool
  | object a, object b => eq a b
  | plain v, plain w => .ok (v.same w)
  | _, _ => .ok false

/-- Compares a member with itself, given how objects compare with themselves. -/
def Member.sameAsItself (eq : Ref → Outcome Bool) : Member → Outcome Bool
  | object r => eq r
  | plain v => .ok v.sameAsItself

/-- A sequence is the same as itself, unless it is a value that is not a number. -/
def Members.sameAsItself : Members → Bool
  | plain v => v.sameAsItself
  | _ => true

/-- Compares lists of members one by one, given how objects compare. An object is not compared with
itself: it counts as the same. -/
def sameMembers (eq : Ref → Ref → Outcome Bool) : List Member → List Member → Outcome Bool
  | [], [] => .ok true
  | m :: ms, n :: ns => do
    if ← m.same (fun a b => if a = b then .ok true else eq a b) n then sameMembers eq ms ns
    else return false
  | _, _ => .ok false

/-- Compares sequences of the same kind, given how objects compare. -/
def Members.same (eq : Ref → Ref → Outcome Bool) : Members → Members → Outcome Bool
  | growing ms, growing ns | fixed ms, fixed ns => sameMembers eq ms ns
  | plain v, plain w => .ok (v.same w)
  | _, _ => .ok false

namespace Store

/-- Compares an object with itself, if it is nested less than `depth` deep. It differs only by a value
that is not a number. -/
def sameAsItselfWithin (s : Store) : Nat → Ref → Outcome Bool
  | 0, _ => .error .endless
  | depth + 1, r =>
    match s.cell r with
    | .column _ | .relationship .. | .rect _ => do
      let _ ← s.toJson r
      return true
    | .table t =>
      if t.name.sameAsItself then do
        let _ ← t.columns.items
        return true
      else .ok false
    | .schema sc => .ok (sc.tables.sameAsItself && sc.relationships.sameAsItself)
    | .diagram d => do
      if d.version.sameAsItself then
        if ← d.schema.sameAsItself (s.sameAsItselfWithin depth) then
          return d.positions.sameAsItself && d.zoom.sameAsItself && d.pan.sameAsItself
        else return false
      else return false

/-- Compares objects that are nested less than `depth` deep. -/
def sameWithin (s : Store) : Nat → Ref → Ref → Outcome Bool
  | 0, _, _ => .error .endless
  | depth + 1, a, b =>
    if a = b then s.sameAsItselfWithin (depth + 1) a
    else match s.cell a, s.cell b with
      | .column _, .column _ | .relationship .., .relationship .. | .rect _, .rect _ => do
        return (← s.toJson a).same (← s.toJson b)
      | .table t, .table u =>
        if t.name.same u.name then do
          sameMembers (s.sameWithin depth) (← t.columns.items) (← u.columns.items)
        else .ok false
      | .schema p, .schema q => do
        if ← p.tables.same (s.sameWithin depth) q.tables then
          p.relationships.same (s.sameWithin depth) q.relationships
        else return false
      | .diagram d, .diagram e => do
        if d.version.same e.version then
          if ← d.schema.same (s.sameWithin depth) e.schema then
            return d.positions.same e.positions && d.zoom.same e.zoom && d.pan.same e.pan
          else return false
        else return false
      | _, _ => .ok false

/-- Compares objects. -/
def same (s : Store) (a b : Ref) : Outcome Bool := s.sameWithin s.depth a b

end Store

end ErCanvas
