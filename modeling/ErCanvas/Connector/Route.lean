import ErCanvas.Connector.Orthogonal
import ErCanvas.Connector.Points
import ErCanvas.Grid.Search

/-! # Routes

Every relationship with a connector is routed: directly, or on the grid around all cards but the two
that it connects. -/

namespace ErCanvas

/-- How relationships are routed. -/
inductive RouteMode where
  | orthogonal
  | grid
deriving DecidableEq, Repr

namespace RouteMode

def name : RouteMode → String
  | orthogonal => "orthogonal"
  | grid => "grid"

/-- The mode that a value names. -/
def ofJson? : Json → Option RouteMode
  | .str "orthogonal" => some orthogonal
  | .str "grid" => some grid
  | _ => none

/-- The mode that a value names; any other is a fault. -/
def ofJson (v : Json) : Outcome RouteMode :=
  match ofJson? v with
  | some m => .ok m
  | none => .error (.unknownMode v.text)

end RouteMode

/-- A drawable route. -/
structure Route where
  id : String
  mode : RouteMode
  path : String
  points : List Point
  arrowAngle : Int
  finish : Point

namespace Route

def toJson (r : Route) : Json :=
  .obj [("id", .str r.id), ("mode", .str r.mode.name), ("path", .str r.path),
    ("points", .arr (r.points.map Point.toJson)), ("arrowAngle", .int r.arrowAngle),
    ("end", r.finish.toJson)]

/-- The cell size of the default grid. -/
def standardCell : Json := .int 20

/-- The cards that the line of a relationship goes around: those of the tables with a position that it
does not connect. -/
def obstacles (s : Schema Json) (positions : Json) (r : Relationship Json) :
    Outcome (List Rect) := do
  let source ← r.fromTable.lower
  let target ← r.toTable.lower
  let entries ← positions.entries
  let others := s.tables.filter fun t => t.id != source && t.id != target
  (others.filterMap fun t => (Json.find? t.id entries).map (t, ·)).mapM fun (t, position) =>
    Card.rect t position

/-- The points of a line on the grid. -/
def gridPoints (s : Schema Json) (positions : Json) (r : Relationship Json) (c : Connector)
    (extent : Extent) (cell : Json) : Outcome (List Point × List Note) := do
  let cards ← obstacles s positions r
  let (raw, notes) ← Grid.route c.start c.finish cards extent cell
  return (← Path.smooth raw, notes)

/-- The points and the path of a line. -/
def line (s : Schema Json) (positions : Json) (mode : RouteMode) (extent : Extent) (cell : Json)
    (r : Relationship Json) (c : Connector) : Outcome (List Point × String × List Note) :=
  match mode with
  | .grid => do
    let (points, notes) ← gridPoints s positions r c extent cell
    return (points, ← Path.svg points, notes)
  | .orthogonal => do
    let points ← Orthogonal.points c.start c.finish
    let path ← Orthogonal.path c.start.x c.start.y c.finish.x c.finish.y c.exitRight
      Orthogonal.cornerRadius
    return (points, path, [])

/-- The route of a relationship, if it has a connector, and the notes. -/
def of? (s : Schema Json) (positions : Json) (mode : RouteMode) (extent : Extent) (cell : Json)
    (r : Relationship Json) : Outcome (Option Route × List Note) := do
  match ← Connector.of? s positions r with
  | none => return (none, [.undrawable r.id])
  | some c =>
    let (points, path, notes) ← line s positions mode extent cell r c
    return (some ⟨r.id, mode, path, points, c.arrowAngle, c.finish⟩, notes)

/-- The routes of all relationships that have a connector, in order, and the notes. -/
def all (s : Schema Json) (positions : Json) (mode : RouteMode) (extent : Extent) (cell : Json) :
    Outcome (List Route × List Note) := do
  let results ← s.relationships.mapM (of? s positions mode extent cell)
  return (results.filterMap (·.1), results.flatMap (·.2))

/-- The routes in the mode that a value names. -/
def allIn (s : Schema Json) (positions mode : Json) (extent : Extent) (cell : Json) :
    Outcome (List Route × List Note) := do
  all s positions (← RouteMode.ofJson mode) extent cell

end Route

end ErCanvas
