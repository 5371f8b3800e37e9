import ErCanvas.Path.Smooth
import ErCanvas.Path.Svg

/-! # Orthogonal lines

The direct line between two points runs horizontally to the middle between them, vertically to the
height of the target, and horizontally on. Its corners are rounded, with a radius for which there
is room on both legs. -/

namespace ErCanvas.Orthogonal

/-- The greatest radius of a corner. -/
def cornerRadius : Json := .int 10

/-- The middle between two values. -/
def middle (a b : Json) : Outcome Number := do
  (← (← a.number).add (← b.number)).div (.int 2)

/-- The smaller of two numbers, the first one if neither is. -/
def smaller (a b : Number) : Number := if b.lt a then b else a

/-- The values along an orthogonal line with corners: where the first corner begins and ends, and where
the second does. -/
structure Corners where
  beforeX : Number
  middleX : Number
  leaveY : Number
  enterY : Number
  afterX : Number

/-- The corners of the line from `(fx, fy)` to `(tx, ty)`. The first corner lies before the middle, seen
from the side on which the line leaves. -/
def corners (fx fy tx ty : Json) (exitRight : Bool) (radius : Json) : Outcome Corners := do
  let mx ← middle fx tx
  let fy ← fy.number
  let ty ← ty.number
  let sign : Number := .int (if fy.lt ty then 1 else -1)
  let halfHeight ← (← ty.sub fy).abs.div (.int 2)
  let halfWidth := (← mx.sub (← fx.number)).abs
  let r := smaller (smaller (← radius.number) halfHeight) halfWidth
  let beforeX ← if exitRight then mx.sub r else mx.add r
  let afterX ← if exitRight then mx.add r else mx.sub r
  let rise ← r.mul sign
  return ⟨beforeX, mx, ← fy.add rise, ← ty.sub rise, afterX⟩

open ErCanvas.Path in
/-- The text of the line with corners. -/
def cornered (fx fy tx ty : Json) (c : Corners) : Outcome String := do
  let fxText ← coordinate fx
  let fyText ← coordinate fy
  let before ← computed c.beforeX
  let mx ← computed c.middleX
  let leave ← computed c.leaveY
  let enter ← computed c.enterY
  let tyText ← coordinate ty
  let after ← computed c.afterX
  let txText ← coordinate tx
  return "M " ++ fxText ++ " " ++ fyText ++ " H " ++ before ++
    " Q " ++ mx ++ " " ++ fyText ++ " " ++ mx ++ " " ++ leave ++ " V " ++ enter ++
    " Q " ++ mx ++ " " ++ tyText ++ " " ++ after ++ " " ++ tyText ++ " H " ++ txText

open ErCanvas.Path in
/-- The text of the line from `(fx, fy)` to `(tx, ty)`: straight when the heights differ by less than
one. -/
def path (fx fy tx ty : Json) (exitRight : Bool) (radius : Json) : Outcome String := do
  let height := (← (← ty.number).sub (← fy.number)).abs
  if height.lt (.int 1) then
    let fxText ← coordinate fx
    let fyText ← coordinate fy
    let txText ← coordinate tx
    return "M " ++ fxText ++ " " ++ fyText ++ " H " ++ txText
  else cornered fx fy tx ty (← corners fx fy tx ty exitRight radius)

/-- The turning points of the line. -/
def points (start finish : Point) : Outcome (List Point) := do
  let mx ← middle start.x finish.x
  Path.smooth [start, ⟨.num mx, start.y⟩, ⟨.num mx, finish.y⟩, finish]

end ErCanvas.Orthogonal
