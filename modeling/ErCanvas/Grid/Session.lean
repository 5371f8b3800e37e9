import ErCanvas.Grid.Frontier

/-! # Sessions on a frontier

A frontier is worked on step by step, its nodes going by the names they were given. A node keeps the
first name it got. -/

namespace ErCanvas.Grid

/-- A step of a session. -/
inductive Step where
  /-- A new node under a name, pushed or relaxed; the cost of the rest is added to its own. -/
  | push (name : String) (x y cost rest : Number) (parent : Option String)
  | peek
  | pop
  | get (x y : Number)
  | remove (name : String)
  | path (name : String)

/-- A node as it is answered. -/
structure NodeView where
  name : Option String
  x : Number
  y : Number
  cost : Number
  total : Number
  parent : Option String

/-- What a step answers. -/
inductive Answer where
  | nothing
  | node (n : NodeView)
  | positions (ps : List (Number × Number))

/-- A frontier with the names of its nodes: what a name stands for, and what a node was called
first. -/
structure Session where
  frontier : Frontier
  bindings : List (String × Nat)
  firstNames : List (Nat × String)

namespace Session

def empty : Session := ⟨.empty, [], []⟩

/-- The node of a name. -/
def lookup (s : Session) (name : String) : Outcome Nat :=
  match s.bindings.lookup name with
  | some i => .ok i
  | none => .error (.missingKey name)

/-- The session in which a name stands for a node. -/
def bind (s : Session) (name : String) (i : Nat) : Session :=
  { s with
    bindings := (name, i) :: s.bindings
    firstNames := s.firstNames ++ [(i, name)] }

/-- A node as it is answered. -/
def view (s : Session) (i : Nat) : NodeView :=
  let n := s.frontier.node i
  ⟨s.firstNames.lookup i, n.x, n.y, n.cost, n.total, n.parent.bind fun p => s.firstNames.lookup p⟩

/-- The best open node; there has to be one. -/
def best (s : Session) : Outcome Nat :=
  match s.frontier.best? with
  | some i => .ok i
  | none => .error .outOfRange

/-- The node that a name for a parent stands for. -/
def parentOf (s : Session) : Option String → Outcome (Option Nat)
  | some name => (s.lookup name).map some
  | none => .ok none

/-- Pushes a new node. -/
def push (s : Session) (name : String) (x y cost rest : Number) (parent : Option String) :
    Outcome (Session × Answer) := do
  let parent ← s.parentOf parent
  let (f, i) := s.frontier.make ⟨x, y, cost, ← cost.add rest, parent⟩
  let (f, stored) := f.pushOrRelax i
  let s := { s with frontier := f }.bind name i
  return (s, .node (s.view stored))

/-- Takes a node out. -/
def remove (s : Session) (i : Nat) : Outcome Session := do
  return { s with frontier := ← s.frontier.remove i }

/-- One step. -/
def step (s : Session) : Step → Outcome (Session × Answer)
  | .push name x y cost rest parent => s.push name x y cost rest parent
  | .peek => do return (s, .node (s.view (← s.best)))
  | .pop => do
    let i ← s.best
    return (← s.remove i, .node (s.view i))
  | .get x y =>
    match s.frontier.find? x y with
    | some i => .ok (s, .node (s.view i))
    | none => .ok (s, .nothing)
  | .remove name => do return (← s.remove (← s.lookup name), .nothing)
  | .path name => do
    let i ← s.lookup name
    return (s, .positions ((s.frontier.trail i).map fun n => (n.x, n.y)))

end Session

end ErCanvas.Grid
