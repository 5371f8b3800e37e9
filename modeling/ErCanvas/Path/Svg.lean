import ErCanvas.Canvas.Point
import ErCanvas.Text.Numeral

/-! # Path texts

A path is written with the commands of scalable vector graphics. A whole number is written without a
point, any other number with the fewest digits that read back. -/

namespace ErCanvas

/-- The value as a floating-point number: a number, a truth value, or the text of a number. -/
def Json.toBinary64 : Json → Outcome Binary64
  | .str s => Text.readFloat s
  | v => do (← v.number).toBinary64

namespace Path

/-- The text of a floating-point number. -/
def numberText (x : Binary64) : String :=
  if x.isInteger then toString x.toRat.num else x.text

/-- The text of a coordinate. -/
def coordinate (v : Json) : Outcome String := do return numberText (← v.toBinary64)

/-- The text of a number that has been computed. -/
def computed (n : Number) : Outcome String := coordinate (.num n)

/-- A command that leads to a point. -/
def command (letter : String) (p : Point) : Outcome String := do
  let x ← coordinate p.x
  let y ← coordinate p.y
  return letter ++ " " ++ x ++ " " ++ y

/-- The path through the points: a move to the first, and lines to the others. -/
def svg : List Point → Outcome String
  | [] => .ok ""
  | first :: rest => do
    let move ← command "M" first
    let lines ← rest.mapM (command "L")
    return String.intercalate " " (move :: lines)

end Path

end ErCanvas
