import ErCanvas.Json.Shown

/-! # Points

A point keeps its coordinates as they are given, and so shows them as they are given; arithmetic reads
them as numbers when it needs them. -/

namespace ErCanvas

/-- A point of the canvas. -/
structure Point where
  x : Json
  y : Json
deriving Inhabited

namespace Point

/-- The point at two numbers. -/
def ofNumbers (x y : Number) : Point := ⟨.num x, .num y⟩

/-- The points agree by value. -/
def same (p q : Point) : Bool := p.x.same q.x && p.y.same q.y

/-- The point as it is shown. -/
def shown (p : Point) : String := "(" ++ p.x.shown ++ ", " ++ p.y.shown ++ ")"

/-- The point as it is stored. -/
def toJson (p : Point) : Json := .obj [("x", p.x), ("y", p.y)]

/-- The point with the coordinates that a value has. -/
def ofJson (v : Json) : Outcome Point := do
  let x ← v.entry "x"
  let y ← v.entry "y"
  return ⟨x, y⟩

end Point

end ErCanvas
