import ErCanvas.Canvas.Rect
import ErCanvas.Schema.Stored

/-! # Connectors

A table is drawn as a card: a header, and below it a row for every column. A relationship is drawn
from the row of its source column to the row of its target column, at the height of their centres. The
line leaves the source on the side that faces the target, to the right when the centre of the
target is not left of the centre of the source, and enters the target on the opposite side. -/

namespace ErCanvas

namespace Card

def width : Int := 220
def headerHeight : Int := 36
def rowHeight : Int := 24

/-- The rectangle of a table's card. -/
def rect (t : Table Json) (position : Json) : Outcome Rect := do
  let x ← position.entry "x"
  let y ← position.entry "y"
  return ⟨x, y, .int width, .int (headerHeight + t.columns.length * rowHeight)⟩

/-- The height at which the row of a column has its centre, on a card at the given height. -/
def rowCenter (y : Number) (index : Number) : Outcome Number := do
  let top ← y.add (.int headerHeight)
  let row ← top.add (← index.mul (.int rowHeight))
  row.add (.float (.num 12))

/-- The height at which a row has its centre, on the card at a position. -/
def rowCenterY (position index : Json) : Outcome Number := do
  let y ← (← position.entry "y").number
  rowCenter y (← index.number)

/-- The horizontal centre of a card. -/
def centerX (position : Json) : Outcome Number := do
  (← (← position.entry "x").number).add (.float (.num 110))

/-- The right edge of a card. -/
def rightX (position : Json) : Outcome Json := do
  return .num (← (← (← position.entry "x").number).add (.int width))

/-- The left edge of a card. -/
def leftX (position : Json) : Outcome Json := position.entry "x"

end Card

/-- Where the line of a relationship begins and ends. -/
structure Connector where
  start : Point
  finish : Point
  exitRight : Bool
deriving Inhabited

namespace Connector

/-- The direction of the arrow head, in degrees. -/
def arrowAngle (c : Connector) : Int := if c.exitRight then 0 else 180

/-- The connector as it is shown. -/
def shown (c : Connector) : String :=
  "ConnectorPoints(start=" ++ c.start.shown ++ ", end=" ++ c.finish.shown ++ ", exit_right=" ++
    (Json.bool c.exitRight).shown ++ ")"

/-- The position of a table, if it has one that does not count as false. -/
def position? (positions : Json) (id : String) : Outcome (Option Json) := do
  return (← positions.entry? id).filter Json.isTruthy

/-- The connector between rows of two cards. -/
def between (fromPosition toPosition : Json) (fromRow toRow : Nat) : Outcome Connector := do
  let fromY ← Card.rowCenterY fromPosition (.int fromRow)
  let toY ← Card.rowCenterY toPosition (.int toRow)
  let fromCenter ← Card.centerX fromPosition
  let toCenter ← Card.centerX toPosition
  if fromCenter.le toCenter then
    return ⟨⟨← Card.rightX fromPosition, .num fromY⟩, ⟨← Card.leftX toPosition, .num toY⟩, true⟩
  else
    return ⟨⟨← Card.leftX fromPosition, .num fromY⟩, ⟨← Card.rightX toPosition, .num toY⟩, false⟩

/-- The connector of a relationship; none if a table, a position or a column is unknown. -/
def of? (s : Schema Json) (positions : Json) (r : Relationship Json) :
    Outcome (Option Connector) := do
  let fromTable ← s.table? r.fromTable
  let toTable ← s.table? r.toTable
  match fromTable, toTable with
  | some fromTable, some toTable =>
    let fromPosition ← position? positions fromTable.id
    let toPosition ← position? positions toTable.id
    match fromPosition, toPosition with
    | some fromPosition, some toPosition =>
      let fromRow ← fromTable.columnIndex? r.fromColumn
      let toRow ← toTable.columnIndex? r.toColumn
      match fromRow, toRow with
      | some fromRow, some toRow => return some (← between fromPosition toPosition fromRow toRow)
      | _, _ => return none
    | _, _ => return none
  | _, _ => return none

end Connector

end ErCanvas
