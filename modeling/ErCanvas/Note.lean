import ErCanvas.Json.Shown

/-! # Notes

What an operation leaves out or falls back on is noted, and shown on demand. -/

namespace ErCanvas

/-- Something worth knowing that is no failure. -/
inductive Note where
  /-- A statement whose parenthesis is never closed. -/
  | unclosed (table : String)
  /-- A clause that says nothing about columns or keys. -/
  | skipped (kind table clause : String)
  /-- A clause that is not the definition of a column. -/
  | unrecognized (table clause : String)
  /-- A declarative document with a wrong shape. -/
  | rejected (reason : String)
  /-- A relationship without known end points. -/
  | undrawable (relationship : String)
  /-- No way around the obstacles between two points. -/
  | noRoute (start finish : String)
deriving DecidableEq, Repr

/-- The part of the program that notes it. -/
def Note.source : Note → String
  | unclosed _ | skipped .. | unrecognized .. => "schema_diagram.engine.sql_parser"
  | rejected _ => "schema_diagram.engine.json_parser"
  | undrawable _ => "schema_diagram.engine.connectors"
  | noRoute .. => "schema_diagram.engine.pathfinding"

/-- The wording of a note. -/
def Note.message : Note → String
  | unclosed table => "Unbalanced CREATE TABLE statement for " ++ table ++ " skipped"
  | skipped kind table clause => "Skipping " ++ kind ++ " clause in " ++ table ++ ": " ++ clause
  | unrecognized table clause =>
    "Unrecognized column definition in " ++ table ++ ": " ++ clause
  | rejected reason => "Rejected JSON schema document: " ++ reason
  | undrawable relationship => "Relationship " ++ relationship ++ " has no drawable endpoints"
  | noRoute start finish =>
    "No route from " ++ start ++ " to " ++ finish ++ ", falling back to a direct segment"

end ErCanvas
