import ErCanvas.Number.Basic

/-! # The frontier of a search

Nodes are kept in the order in which they were made, and a node is known by its place. The open ones
stand in a list of their own, in the order in which their positions were discovered. A position is
open at most once: a cheaper way to it changes the node that is open there, which keeps its place.

* `pushOrRelax`: opens a node, or lowers the cost of the open node at its position.
* `best?`: the open node with the least total, the first discovered of several.
* `trail`: the positions from the root to a node. -/

namespace ErCanvas.Grid

/-- A position with the cost of the way to it, that cost with the estimate of the rest, and the node it
was reached from. -/
structure Node where
  x : Number
  y : Number
  cost : Number
  total : Number
  parent : Option Nat
deriving Inhabited

/-- The node is at the position. -/
def Node.isAt (n : Node) (x y : Number) : Bool := n.x.same x && n.y.same y

/-- All nodes, and the open ones in order of discovery. -/
structure Frontier where
  nodes : Array Node
  opened : Array Nat

namespace Frontier

def empty : Frontier := ⟨#[], #[]⟩

/-- The node at a place. -/
def node (f : Frontier) (i : Nat) : Node := f.nodes.getD i default

/-- The frontier with one more node, which is not open, and its place. -/
def make (f : Frontier) (n : Node) : Frontier × Nat :=
  ({ f with nodes := f.nodes.push n }, f.nodes.size)

/-- The open node at a position. -/
def find? (f : Frontier) (x y : Number) : Option Nat :=
  f.opened.find? fun i => (f.node i).isAt x y

/-- The number of open positions. -/
def size (f : Frontier) : Nat := f.opened.size

/-- The node at place `i` gets the costs and the parent of `n`, if `n` is cheaper. -/
def relax (f : Frontier) (i : Nat) (n : Node) : Frontier :=
  if n.cost.lt (f.node i).cost then
    { f with nodes := f.nodes.modify i fun old =>
        { old with cost := n.cost, total := n.total, parent := n.parent } }
  else f

/-- Opens a node, or lowers the cost of the open node at its position. The open node there is
returned. -/
def pushOrRelax (f : Frontier) (i : Nat) : Frontier × Nat :=
  let n := f.node i
  match f.find? n.x n.y with
  | none => ({ f with opened := f.opened.push i }, i)
  | some j => (f.relax j n, j)

/-- The better of two nodes, the first one if they are equally good. -/
def better (f : Frontier) (i j : Nat) : Nat :=
  if (f.node j).total.lt (f.node i).total then j else i

/-- The open node with the least total, the first discovered of several. -/
def best? (f : Frontier) : Option Nat :=
  match f.opened[0]? with
  | none => none
  | some i => some (f.opened.foldl f.better i)

/-- Takes an open node out. -/
def remove (f : Frontier) (i : Nat) : Outcome Frontier :=
  match f.opened.findIdx? (· == i) with
  | some k => .ok { f with opened := f.opened.eraseIdxIfInBounds k }
  | none => .error .notListed

/-- The nodes from `i` back along the parents, at most `fuel` of them. -/
def ancestry (f : Frontier) : Nat → Nat → List Node
  | 0, _ => []
  | fuel + 1, i =>
    let n := f.node i
    match n.parent with
    | none => [n]
    | some p => n :: f.ancestry fuel p

/-- The nodes from the root to `i`. -/
def trail (f : Frontier) (i : Nat) : List Node := (f.ancestry f.nodes.size i).reverse

end Frontier

end ErCanvas.Grid
