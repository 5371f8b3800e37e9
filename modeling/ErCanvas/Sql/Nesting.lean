import ErCanvas.Fault
import ErCanvas.Text.Blank

/-! # Nesting

Parentheses nest, and commas separate, only outside quotes. Both the end of a statement and the
clauses inside it are found by one scan: a state of nesting that every character moves on. -/

namespace ErCanvas.Sql

/-- A quote: what stands between two of the same kind is read as it is. -/
def isQuote (c : Char) : Bool := c == '\'' || c == '"' || c == '\x60'

/-- How deep a place is inside parentheses, and the quote that is open there. -/
structure Nesting where
  depth : Int
  quote : Option Char
deriving DecidableEq, Repr

namespace Nesting

/-- Outside all parentheses and quotes. -/
def top : Nesting := ⟨0, none⟩

/-- The nesting behind a character. -/
def step (n : Nesting) (c : Char) : Nesting :=
  match n.quote with
  | some q => if c = q then ⟨n.depth, none⟩ else n
  | none =>
    if isQuote c then ⟨n.depth, some c⟩
    else if c = '(' then ⟨n.depth + 1, none⟩
    else if c = ')' then ⟨n.depth - 1, none⟩
    else n

/-- The nesting behind a text. -/
def scan (n : Nesting) (cs : List Char) : Nesting := cs.foldl step n

/-- The character closes the outermost parenthesis. -/
def closes (n : Nesting) (c : Char) : Bool :=
  n.quote.isNone && c == ')' && n.depth == 1

/-- The character separates two clauses. -/
def separates (n : Nesting) (c : Char) : Bool :=
  n.quote.isNone && c == ',' && n.depth == 0

end Nesting

/-- The place of the parenthesis that closes the outermost one. -/
def closing? (n : Nesting) : List Char → Option Nat
  | [] => none
  | c :: rest => if n.closes c then some 0 else (closing? (n.step c) rest).map (· + 1)

/-- The place of the parenthesis that closes the one at `start`, `-1` if there is none. Places before
the text count from its end. -/
def closingIndex (cs : List Char) (start : Int) : Outcome Int :=
  let back := (-start).toNat
  if cs.length < back then .error .outOfRange
  else
    let scanned := if 0 ≤ start then cs.drop start.toNat else cs.drop (cs.length - back) ++ cs
    match closing? .top scanned with
    | some i => .ok (start + i)
    | none => .ok (-1)

/-- The pieces of a text between its separating commas. -/
def pieces (n : Nesting) : List Char → List (List Char)
  | [] => [[]]
  | c :: rest =>
    if n.separates c then [] :: pieces n rest
    else match pieces (n.step c) rest with
      | p :: ps => (c :: p) :: ps
      | [] => [[c]]

/-- The clauses of a statement: its pieces without white space around them, empty ones left out. -/
def clauses (cs : List Char) : List (List Char) :=
  ((pieces .top cs).map Text.trim).filter (!·.isEmpty)

end ErCanvas.Sql
