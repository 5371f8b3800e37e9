import ErCanvas.Canvas.Point
import ErCanvas.Schema.Stored

/-! # Diagrams

A diagram is a schema with the positions of its cards and a view: how far it is zoomed and panned. It
is kept in a document. Positions and pan are reduced to their coordinates, and the zoom is kept
within its limits.

* `Diagram.make`: a diagram from its parts, which may be values of any kind.
* `Diagram.toJson`, `Diagram.ofJson`: into a document and back. -/

namespace ErCanvas

/-- A diagram. -/
structure Diagram where
  version : Json
  schema : Schema Json
  positions : List (String × Point)
  zoom : Json
  pan : Point

namespace Diagram

/-- The version of the document format. -/
def formatVersion : Json := .str "1.0"

/-- The keys that a document has to have. -/
def requiredKeys : List String := ["version", "schema", "positions", "viewState"]

def leastZoom : Number := .float (.num (1 / 4))
def greatestZoom : Number := .float (.num 2)

/-- The zoom of a diagram that is not zoomed. -/
def standardZoom : Json := .num (.float (.num 1))

/-- The zoom within its limits. A zoom between them is kept as it is given. -/
def clampZoom (zoom : Json) : Outcome Json := do
  let z ← zoom.number
  if z.lt greatestZoom then
    if leastZoom.lt z then return zoom else return .num leastZoom
  else return .num greatestZoom

/-- The coordinates at every id. -/
def positionsOf (v : Json) : Outcome (List (String × Point)) := do
  (← v.entries).mapM fun (id, position) => do return (id, ← Point.ofJson position)

/-- The coordinates that a diagram is panned by; a pan that counts as false is none. -/
def panOf (v : Json) : Outcome Point :=
  if v.isTruthy then Point.ofJson v else .ok ⟨.int 0, .int 0⟩

/-- A diagram from its parts. -/
def make (schema : Schema Json) (positions zoom pan version : Json) : Outcome Diagram := do
  let positions ← positionsOf positions
  let zoom ← clampZoom zoom
  let pan ← panOf pan
  return ⟨version, schema, positions, zoom, pan⟩

/-- Positions as they are stored. -/
def positionsJson (positions : List (String × Point)) : Json :=
  .obj (positions.map fun (id, p) => (id, p.toJson))

/-- The view as it is stored. -/
def viewJson (zoom : Json) (pan : Point) : Json := .obj [("zoom", zoom), ("pan", pan.toJson)]

/-- The diagram as a document. -/
def toJson (d : Diagram) : Json :=
  .obj [("version", d.version), ("schema", d.schema.toJson),
    ("positions", positionsJson d.positions), ("viewState", viewJson d.zoom d.pan)]

end Diagram

end ErCanvas
