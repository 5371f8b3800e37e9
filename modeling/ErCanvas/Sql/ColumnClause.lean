import ErCanvas.Schema.Basic
import ErCanvas.Sql.Clause
import ErCanvas.Text.Case.Upper

/-! # Column clauses

The definition of a column: its name, its type, and behind them, in any order, whether it is a primary
key, whether it may be null, and the column that it references. -/

namespace ErCanvas.Sql

/-- The type at the front of a text: a word, with what follows it in parentheses. -/
def type? (cs : List Char) : Option (List Char) :=
  match word? cs with
  | none => none
  | some (w, rest) =>
    match mark? '(' rest with
    | none => some w
    | some inside =>
      if inside.contains ')' then
        let arguments := inside.takeWhile (· != ')')
        let gap := rest.takeWhile Text.isBlank
        some (w ++ gap ++ '(' :: arguments ++ [')'])
      else some w

/-- The single name in parentheses behind a referenced table. -/
def referencedColumn? (cs : List Char) : Option (List Char) :=
  match (mark? '(' cs).bind fun rest => name? (skipBlanks rest) with
  | some (w, rest) => (mark? ')' rest).map fun _ => w
  | none => none

/-- The table and column that the text references at its front; the column is `id` if none is named. -/
def reference? (cs : List Char) : Option (Reference String) :=
  match ((keyword? references cs).bind blanks?).bind qualifiedName? with
  | some (table, rest) =>
    some ⟨String.ofList table, String.ofList ((referencedColumn? rest).getD ['i', 'd'])⟩
  | none => none

/-- The column that a clause defines. -/
def column? (cs : List Char) : Option (Column String) :=
  match name? cs with
  | none => none
  | some (name, rest) =>
    match (blanks? rest).bind type? with
    | none => none
    | some type =>
      let text := Text.upper cs
      let isPrimaryKey := contains "PRIMARY KEY".toList text
      let isNullable := !(contains "NOT NULL".toList text || isPrimaryKey)
      some (Column.make (String.ofList name) (normalizeType (String.ofList type)) isPrimaryKey false
        isNullable (search? reference? cs))

end ErCanvas.Sql
