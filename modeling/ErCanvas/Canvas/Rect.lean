import ErCanvas.Canvas.Point

/-! # Rectangles and the extent of the canvas

A rectangle lies along the axes, from its corner at `(x, y)`. A point is tested coordinate by
coordinate; a test that has failed looks at nothing more. -/

namespace ErCanvas

/-- A rectangle along the axes. -/
structure Rect where
  x : Json
  y : Json
  width : Json
  height : Json
deriving Inhabited

namespace Rect

def ofJson (v : Json) : Outcome Rect := do
  let x ← v.entry "x"
  let y ← v.entry "y"
  let width ← v.entry "width"
  let height ← v.entry "height"
  return ⟨x, y, width, height⟩

def toJson (r : Rect) : Json :=
  .obj [("x", r.x), ("y", r.y), ("width", r.width), ("height", r.height)]

/-- The rectangle as it is shown. -/
def shown (r : Rect) : String :=
  "Rect(x=" ++ r.x.text ++ ", y=" ++ r.y.text ++ ", width=" ++ r.width.text ++ ", height=" ++
    r.height.text ++ ")"

/-- The value lies within a side grown by `buffer` at both ends, the ends included. -/
def sideCovers (start length buffer value : Json) : Outcome Bool := do
  let start ← start.number
  let low ← start.sub (← buffer.number)
  let value ← value.number
  if low.le value then
    return value.le (← (← start.add (← length.number)).add (← buffer.number))
  else return false

/-- The point lies in the rectangle grown by `buffer`, the edges included. -/
def contains (r : Rect) (x y buffer : Json) : Outcome Bool := do
  if ← sideCovers r.x r.width buffer x then sideCovers r.y r.height buffer y else return false

end Rect

/-- The point lies in one of the rectangles, all grown by `buffer`. -/
def isBlocked (x y : Json) (obstacles : List Rect) (buffer : Json) : Outcome Bool :=
  match obstacles with
  | [] => .ok false
  | r :: rest => do if ← r.contains x y buffer then return true else isBlocked x y rest buffer

/-- The extent of the canvas, which starts at zero. -/
structure Extent where
  width : Json
  height : Json
deriving Inhabited

namespace Extent

/-- The canvas of the default size. -/
def standard : Extent := ⟨.int 3000, .int 2000⟩

/-- The value lies between zero and the length, both included. -/
def sideCovers (length value : Json) : Outcome Bool := do
  let value ← value.number
  if Number.le (.int 0) value then return value.le (← length.number) else return false

/-- The point lies on the canvas. -/
def contains (e : Extent) (x y : Json) : Outcome Bool := do
  if ← sideCovers e.width x then sideCovers e.height y else return false

end Extent

end ErCanvas
