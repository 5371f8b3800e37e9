import ErCanvas.Json.Basic

/-! # The written form of a document

A value is written over several lines, two spaces deeper inside every list or object; empty ones stay
on one line. Texts keep their characters but for the quote, the backslash and controls. -/

namespace ErCanvas.Json

/-- Spellings of the numbers that have no digits. -/
def numberNames : Binary64.Names := ⟨"NaN", "Infinity"⟩

/-- The written form of a number. -/
def writeNumber : Number → List Char
  | .int n => (toString n).toList
  | .float x => (x.write numberNames).toList

/-- A character of a text in its written form. -/
def escapeChar (c : Char) : List Char :=
  if c = '"' then ['\\', '"']
  else if c = '\\' then ['\\', '\\']
  else if c = '\n' then ['\\', 'n']
  else if c = '\r' then ['\\', 'r']
  else if c = '\t' then ['\\', 't']
  else if c = '\x0c' then ['\\', 'f']
  else if c = '\x08' then ['\\', 'b']
  else if c.toNat < 32 then '\\' :: 'u' :: Text.hexadecimal 4 c.toNat
  else [c]

/-- The written form of a text. -/
def writeText (s : String) : List Char :=
  '"' :: s.toList.flatMap escapeChar ++ ['"']

/-- The start of a new line at some depth. -/
def newLine (depth : Nat) : List Char := '\n' :: List.replicate (2 * depth) ' '

mutual

/-- The written form of a value at some depth. -/
def write (depth : Nat) : Json → List Char
  | null => ['n', 'u', 'l', 'l']
  | bool true => ['t', 'r', 'u', 'e']
  | bool false => ['f', 'a', 'l', 's', 'e']
  | num n => writeNumber n
  | str s => writeText s
  | arr [] => ['[', ']']
  | arr (x :: xs) =>
    '[' :: newLine (depth + 1) ++ write (depth + 1) x ++ writeItems (depth + 1) xs ++
      newLine depth ++ [']']
  | obj [] => ['\x7b', '\x7d']
  | obj ((k, v) :: rest) =>
    '\x7b' :: newLine (depth + 1) ++ writeText k ++ ':' :: ' ' :: write (depth + 1) v ++
      writeEntries (depth + 1) rest ++ newLine depth ++ ['\x7d']

/-- The written form of the items after the first. -/
def writeItems (depth : Nat) : List Json → List Char
  | [] => []
  | x :: xs => ',' :: newLine depth ++ write depth x ++ writeItems depth xs

/-- The written form of the entries after the first. -/
def writeEntries (depth : Nat) : List (String × Json) → List Char
  | [] => []
  | (k, v) :: rest =>
    ',' :: newLine depth ++ writeText k ++ ':' :: ' ' :: write depth v ++ writeEntries depth rest

end

/-- The written form of a document. -/
def print (v : Json) : String := String.ofList (write 0 v)

end ErCanvas.Json
