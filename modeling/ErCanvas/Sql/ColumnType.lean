import ErCanvas.Sql.Lexeme
import ErCanvas.Text.Case.Lower

/-! # Column types

A known type is written in lower case together with its arguments; any other is left as it stands. -/

namespace ErCanvas.Sql

/-- The names of the known types. -/
def knownTypes : List String := [
  "int", "int2", "int4", "int8", "integer", "smallint", "bigint", "tinyint", "mediumint",
  "serial", "bigserial", "smallserial",
  "float", "float4", "float8", "real", "double", "numeric", "decimal", "money",
  "boolean", "bool", "bit",
  "text", "varchar", "char", "character", "nvarchar", "nchar", "citext",
  "uuid", "date", "time", "timetz", "timestamp", "timestamptz", "datetime", "interval",
  "json", "jsonb", "xml", "bytea", "blob", "inet", "cidr"]

/-- The name of a type in lower case: what stands before its arguments. -/
def typeBase (type : String) : String :=
  Text.lower (String.ofList (Text.trim (type.toList.takeWhile (· != '('))))

/-- The type as it is kept. -/
def normalizeType (type : String) : String :=
  if knownTypes.contains (typeBase type) then Text.lower type else type

/-- The word names a known type, in any case. -/
def isTypeWord (word : List Char) : Bool :=
  knownTypes.any fun t => isKeyword t.toList word

end ErCanvas.Sql
