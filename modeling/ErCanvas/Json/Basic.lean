import ErCanvas.Number.Basic

/-! # Document values

A value of a document: null, a truth value, a number, a text, a list or an object. An object keeps its
entries in order. Values are looked at through the accessors below, each of which fails with a
cause when the value is of another kind. -/

namespace ErCanvas

/-- A value of a document. -/
inductive Json where
  | null
  | bool (b : Bool)
  | num (n : Number)
  | str (s : String)
  | arr (items : List Json)
  | obj (entries : List (String × Json))
deriving Inhabited

namespace Json

/-- A whole number. -/
abbrev int (n : Int) : Json := num (.int n)

/-! ### Kinds -/

/-- The name of a value's kind, as messages give it. -/
def kind : Json → String
  | null => "NoneType"
  | bool _ => "bool"
  | num (.int _) => "int"
  | num (.float _) => "float"
  | str _ => "str"
  | arr _ => "list"
  | obj _ => "dict"

/-- Everything counts as true but null, false, zero and what is empty. -/
def isTruthy : Json → Bool
  | null => false
  | bool b => b
  | num n => !n.isZero
  | str s => !s.isEmpty
  | arr items => !items.isEmpty
  | obj entries => !entries.isEmpty

/-- The value as a number; a truth value counts as zero or one. -/
def number : Json → Outcome Number
  | num n => .ok n
  | bool b => .ok (.int (if b then 1 else 0))
  | _ => .error .wrongKind

/-! ### Objects -/

/-- The value of the first entry with the key. -/
def find? (key : String) : List (String × Json) → Option Json
  | [] => none
  | (k, v) :: rest => if k = key then some v else find? key rest

/-- Sets the value at a key: in its place if the key is there, at the end if not. -/
def insert {α : Type} (key : String) (value : α) : List (String × α) → List (String × α)
  | [] => [(key, value)]
  | (k, v) :: rest => if k = key then (k, value) :: rest else (k, v) :: insert key value rest

/-- The entry of an object at a key that has to be there. -/
def entry (key : String) : Json → Outcome Json
  | obj entries =>
    match find? key entries with
    | some v => .ok v
    | none => .error (.missingKey key)
  | _ => .error .wrongKind

/-- The entry of an object at a key that may be absent. -/
def entry? (key : String) : Json → Outcome (Option Json)
  | obj entries => .ok (find? key entries)
  | v => .error (.missingMember v.kind "get")

/-- The entry of an object at a key, or a default. -/
def entryD (key : String) (v default : Json) : Outcome Json :=
  (v.entry? key).map (·.getD default)

/-- The entries of an object. -/
def entries : Json → Outcome (List (String × Json))
  | obj entries => .ok entries
  | v => .error (.missingMember v.kind "items")

/-- The members of a value, one after the other: the items of a list, the codes of a text, the keys of
an object. -/
def members : Json → Outcome (List Json)
  | arr items => .ok items
  | str s => .ok ((Text.codes s.toList).map fun n => str (String.ofList (Text.spelling n)))
  | obj entries => .ok (entries.map fun e => str e.1)
  | _ => .error .wrongKind

/-! ### Equality

Values are the same when they show the same data: numbers and truth values by value, lists item by
item, objects entry by entry in any order. -/

/-- The scalar as a number, if it counts as one. -/
def number? : Json → Option Number
  | num n => some n
  | bool b => some (.int (if b then 1 else 0))
  | _ => none

mutual

/-- The values show the same data. -/
def same : Json → Json → Bool
  | null, null => true
  | str s, str t => s == t
  | arr xs, arr ys => sameItems xs ys
  | obj xs, obj ys => xs.length == ys.length && sameEntries xs ys
  | num m, w => match number? w with
    | some n => m.same n
    | none => false
  | bool b, w => match number? w with
    | some n => (Number.int (if b then 1 else 0)).same n
    | none => false
  | _, _ => false

/-- The lists agree item by item. -/
def sameItems : List Json → List Json → Bool
  | [], [] => true
  | x :: xs, y :: ys => same x y && sameItems xs ys
  | _, _ => false

/-- Every entry of the first list is in the second. -/
def sameEntries : List (String × Json) → List (String × Json) → Bool
  | [], _ => true
  | (k, v) :: xs, ys =>
    (match find? k ys with
      | some w => same v w
      | none => false) && sameEntries xs ys

end

end Json

end ErCanvas
