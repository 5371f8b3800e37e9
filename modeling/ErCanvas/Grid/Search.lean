import Std.Data.HashSet
import ErCanvas.Canvas.Rect
import ErCanvas.Grid.Frontier
import ErCanvas.Note

/-! # Ways on the grid

From the grid position nearest to the start, the search goes from one grid position to the next along
the axes, never off the canvas and never closer than a cell to an obstacle, until it is at the
position nearest to the goal. It expands the open node with the least sum of the cost so far and the
distance to the goal, measured along the axes.

* `snap`: the grid line nearest to a value.
* `step`: one round of the search.
* `route`: the way between two points, or the straight line between them if there is none. -/

namespace ErCanvas.Grid

/-! ### Grid lines -/

/-- The grid line nearest to a value; from halfway the next one up. -/
def snap (value cell : Number) : Outcome Number := do
  let line ← (← (← value.div cell).add (.float (.num (1 / 2)))).floor
  Number.mul (.int line) cell

/-! ### Problems -/

/-- What a search is about: the position to reach, and where it may go. -/
structure Problem where
  goalX : Number
  goalY : Number
  cell : Number
  obstacles : List Rect
  extent : Extent

/-- A search under way: the frontier and the positions that are done with. -/
structure Search where
  frontier : Frontier
  closed : Std.HashSet (Binary64 × Binary64)

/-- What the search comes to. -/
inductive Verdict where
  | reached (f : Frontier) (node : Nat)
  | noWay
  /-- The rounds allowed were not enough. -/
  | unfinished

/-- A search goes on or is decided. -/
inductive Round where
  | goOn (s : Search)
  | decided (v : Verdict)

namespace Problem

variable (p : Problem)

/-- The distance to the goal along the axes. -/
def distance (x y : Number) : Outcome Number := do
  (← x.sub p.goalX).abs.add (← y.sub p.goalY).abs

/-- The node is less than a cell from the goal. -/
def isGoal (n : Node) : Outcome Bool := do
  if (← n.x.sub p.goalX).abs.lt p.cell then return (← n.y.sub p.goalY).abs.lt p.cell
  else return false

/-- A node reached at some cost. -/
def nodeAt (x y cost : Number) (parent : Option Nat) : Outcome Node := do
  return ⟨x, y, cost, ← cost.add (← p.distance x y), parent⟩

/-- The four neighbours of a position: right, left, down and up. -/
def neighbours (x y : Number) : Outcome (List (Number × Number)) := do
  let right ← x.add p.cell
  let left ← x.sub p.cell
  let down ← y.add p.cell
  let up ← y.sub p.cell
  return [(right, y), (left, y), (x, down), (x, up)]

/-- The search may go to the position. -/
def isFree (x y : Number) : Outcome Bool := do
  if ← p.extent.contains (.num x) (.num y) then
    return !(← isBlocked (.num x) (.num y) p.obstacles (.num p.cell))
  else return false

/-- The position is done with. -/
def isClosed (s : Search) (x y : Number) : Bool :=
  x.same x && y.same y && s.closed.contains (x.key, y.key)

/-- Opens one neighbour of an expanded node, unless it is done with or not free. -/
def visit (i : Nat) (s : Search) (position : Number × Number) : Outcome Search := do
  let (x, y) := position
  if isClosed s x y then return s
  else if ← p.isFree x y then
    let cost ← (s.frontier.node i).cost.add p.cell
    let (f, k) := s.frontier.make (← p.nodeAt x y cost (some i))
    return { s with frontier := (f.pushOrRelax k).1 }
  else return s

/-- Closes a node and opens its neighbours. -/
def expand (s : Search) (i : Nat) : Outcome Search := do
  let n := s.frontier.node i
  let f ← s.frontier.remove i
  let s : Search := ⟨f, s.closed.insert (n.x.key, n.y.key)⟩
  (← p.neighbours n.x n.y).foldlM (p.visit i) s

/-- One round: the best open node is the goal or is expanded. -/
def step (s : Search) : Outcome Round :=
  match s.frontier.best? with
  | none => .ok (.decided .noWay)
  | some i => do
    if ← p.isGoal (s.frontier.node i) then return .decided (.reached s.frontier i)
    else return .goOn (← p.expand s i)

/-- At most `fuel` rounds. -/
def run : Nat → Search → Outcome Verdict
  | 0, _ => .ok .unfinished
  | fuel + 1, s => do
    match ← p.step s with
    | .decided v => return v
    | .goOn s => run fuel s

/-- The search before its first round. -/
def start (x y : Number) : Outcome Search := do
  let (f, i) := Frontier.empty.make (← p.nodeAt x y (.int 0) none)
  return ⟨(f.pushOrRelax i).1, ∅⟩

/-- At most so many coordinates on an axis are grid positions: with whole cells the whole numbers on
the canvas, otherwise the floating-point numbers. -/
def axisCount (cell : Number) (length : Json) : Nat :=
  match cell, length.number with
  | .int _, .ok (.int n) => n.toNat + 1
  | .int _, .ok (.float (.num q)) => q.floor.toNat + 1
  | _, _ => Nat.pow 2 64

/-- Enough rounds for any search: no position is expanded twice. -/
def rounds : Nat :=
  axisCount p.cell p.extent.width * axisCount p.cell p.extent.height + 2

/-- The whole search from a grid position. -/
def solve (x y : Number) : Outcome Verdict := do
  p.run p.rounds (← p.start x y)

end Problem

/-! ### Routes -/

/-- The path from `start` to `finish` exactly: they are added where the path does not begin and end by
value there, and a path is never shorter than two points. -/
def anchor (path : List Point) (start finish : Point) : Outcome (List Point) :=
  match path with
  | [] => .error .outOfRange
  | first :: rest =>
    let path := if first.same start then first :: rest else start :: first :: rest
    let path := if (path.getLastD first).same finish then path else path ++ [finish]
    .ok (if path.length < 2 then path ++ [finish] else path)

/-- The positions of a trail as points. -/
def pointsOf (nodes : List Node) : List Point := nodes.map fun n => Point.ofNumbers n.x n.y

/-- The search between the grid positions nearest to two points. -/
def solveBetween (start finish : Point) (obstacles : List Rect) (extent : Extent) (cell : Json) :
    Outcome Verdict := do
  let snapped (v : Json) : Outcome Number := do snap (← v.number) (← cell.number)
  let startX ← snapped start.x
  let startY ← snapped start.y
  let goalX ← snapped finish.x
  let goalY ← snapped finish.y
  Problem.solve ⟨goalX, goalY, ← cell.number, obstacles, extent⟩ startX startY

/-- The way from `start` to `finish` around the obstacles; if there is none, the two points and a note
of it. -/
def route (start finish : Point) (obstacles : List Rect) (extent : Extent) (cell : Json) :
    Outcome (List Point × List Note) := do
  match ← solveBetween start finish obstacles extent cell with
  | .reached f i => return (← anchor (pointsOf (f.trail i)) start finish, [])
  | _ => return ([start, finish], [.noRoute start.shown finish.shown])

end ErCanvas.Grid
