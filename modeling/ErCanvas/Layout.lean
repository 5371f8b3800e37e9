import ErCanvas.Canvas.Point
import ErCanvas.Schema.Basic

/-! # The default layout

The cards of a fresh schema stand in rows on a grid that is about as wide as high: with `n` tables, the
number of columns is the least whose square is not below `n`. -/

namespace ErCanvas.Layout

def origin : Int := 100
def columnSpacing : Int := 320
def rowSpacing : Int := 250

/-- The least number whose square is not below `n`, from `k` on, trying at most `fuel` numbers. -/
def leastSide (n : Nat) : Nat → Nat → Nat
  | 0, k => k
  | fuel + 1, k => if n ≤ k * k then k else leastSide n fuel (k + 1)

/-- The number of columns of the grid for `n` tables. -/
def side (n : Nat) : Nat := leastSide n n 0

/-- The position of the card at some place. -/
def place (columns index : Nat) : Int × Int :=
  (origin + (index % columns : Nat) * columnSpacing, origin + (index / columns : Nat) * rowSpacing)

/-- The positions of the cards of the tables with these ids. Of tables with the same id the last one
counts. -/
def positions (ids : List String) : List (String × (Int × Int)) :=
  let columns := side ids.length
  ids.zipIdx.foldl (fun acc (id, i) => Json.insert id (place columns i) acc) []

/-- Positions as they are stored. -/
def toJson (positions : List (String × (Int × Int))) : Json :=
  .obj (positions.map fun (id, x, y) => (id, .obj [("x", .int x), ("y", .int y)]))

/-- The default positions of a schema's cards, as they are stored. -/
def ofSchema {ν : Type} (s : Schema ν) : Json := toJson (positions (s.tables.map Table.id))

end ErCanvas.Layout
