import ErCanvas.Canvas.Point

/-! # Smooth paths

An interior point of a path is dropped when the step that leads to it, from the last point kept, and
the step that leads on have the same direction on both axes. A direction is a sign, so a step of any
length counts as much as another. -/

namespace ErCanvas.Path

/-- The direction of a step on one axis. -/
def direction (a b : Json) : Outcome Int := do
  return ((← (← b.number).sub (← a.number))).sign

/-- The path goes straight on at `here` on one axis. -/
def straight (before here after : Json) : Outcome Bool := do
  return (← direction before here) == (← direction here after)

/-- The path goes straight on at `here`. -/
def goesOn (before here after : Point) : Outcome Bool := do
  let sameX ← straight before.x here.x after.x
  let sameY ← straight before.y here.y after.y
  return sameX && sameY

/-- The points kept behind `kept`, the last point kept so far. -/
def smoothFrom (kept : Point) : List Point → Outcome (List Point)
  | [] => .ok []
  | [last] => .ok [last]
  | here :: after :: rest => do
    if ← goesOn kept here after then smoothFrom kept (after :: rest)
    else return here :: (← smoothFrom here (after :: rest))

/-- The path without the points at which it goes straight on. -/
def smooth : List Point → Outcome (List Point)
  | first :: second :: third :: rest => do
    return first :: (← smoothFrom first (second :: third :: rest))
  | short => .ok short

end ErCanvas.Path
