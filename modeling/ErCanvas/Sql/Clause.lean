import ErCanvas.Sql.ColumnType

/-! # Kinds of clauses

A clause in the body of a statement defines a column unless it starts like a constraint. The kinds are
tried in order, and the first that matches counts. -/

namespace ErCanvas.Sql

/-- What a clause is about. -/
inductive ClauseKind where
  | primaryKey
  | foreignKey
  | namedConstraint
  | otherConstraint
  | column
deriving DecidableEq, Repr

/-- The name of a kind. -/
def ClauseKind.name : ClauseKind → String
  | primaryKey => "primary_key"
  | foreignKey => "foreign_key"
  | namedConstraint => "named_constraint"
  | otherConstraint => "other_constraint"
  | column => "column"

def primary : List Char := "primary".toList
def foreign : List Char := "foreign".toList
def key : List Char := "key".toList
def index : List Char := "index".toList
def references : List Char := "references".toList

/-- The clause starts with the phrase, and no word goes on behind it. -/
def startsWith (phrase : List (List Char)) (cs : List Char) : Bool :=
  (phrase? phrase cs).any atWordEnd

/-- The text behind the word for a key or an index. -/
def keyOrIndex? (cs : List Char) : Option (List Char) :=
  match keyword? key cs with
  | some rest => some rest
  | none => keyword? index cs

/-- A uniqueness constraint: with its columns in parentheses, or as a key or index. -/
def isUnique (cs : List Char) : Bool :=
  match keyword? "unique".toList cs with
  | none => false
  | some rest =>
    (mark? '(' rest).isSome || startsWith [key] (skipBlanks rest) ||
      startsWith [index] (skipBlanks rest)

/-- A key or index over columns, named or not. What looks like one with the name of a type in the
place of its own is a column. -/
def isIndex (cs : List Char) : Bool :=
  match keyOrIndex? cs with
  | none => false
  | some rest =>
    (mark? '(' rest).isSome ||
      match (blanks? rest).bind word? with
      | some (w, rest) => !isTypeWord w && (mark? '(' rest).isSome
      | none => false

/-- A constraint that says nothing about primary and foreign keys. -/
def isOtherConstraint (cs : List Char) : Bool :=
  isUnique cs || ((keyword? "check".toList cs).bind (mark? '(')).isSome ||
    startsWith ["exclude".toList] cs || startsWith ["fulltext".toList] cs || isIndex cs

/-- The kind of a clause. -/
def classify (cs : List Char) : ClauseKind :=
  if startsWith [primary, key] cs then .primaryKey
  else if startsWith [foreign, key] cs then .foreignKey
  else if startsWith ["constraint".toList] cs then .namedConstraint
  else if isOtherConstraint cs then .otherConstraint
  else .column

end ErCanvas.Sql
