import ErCanvas.Json.Basic

/-! # Values in messages

A value inside a message or an identifier: a text stands for itself, any other value is shown. Inside
lists and objects texts are quoted. -/

namespace ErCanvas.Json

mutual

/-- A value as it is shown inside a list or an object. -/
def shown : Json → String
  | null => "None"
  | bool b => if b then "True" else "False"
  | num n => n.text
  | str s => Text.quoted s
  | arr items => "[" ++ shownItems items ++ "]"
  | obj entries => "\x7b" ++ shownEntries entries ++ "\x7d"

/-- The items of a list, separated by commas. -/
def shownItems : List Json → String
  | [] => ""
  | [x] => shown x
  | x :: xs => shown x ++ ", " ++ shownItems xs

/-- The entries of an object, separated by commas. -/
def shownEntries : List (String × Json) → String
  | [] => ""
  | [(k, v)] => Text.quoted k ++ ": " ++ shown v
  | (k, v) :: rest => Text.quoted k ++ ": " ++ shown v ++ ", " ++ shownEntries rest

end

/-- A value as it stands in a message: a text stands for itself. -/
def text : Json → String
  | str s => s
  | v => v.shown

end ErCanvas.Json
