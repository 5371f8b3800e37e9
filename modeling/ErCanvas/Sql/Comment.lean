import ErCanvas.Text.Blank

/-! # Comments

A script is cleaned before it is read: block comments go first, then line comments, then every run of
white space becomes one space. A block comment that is never closed is no comment. -/

namespace ErCanvas.Sql

/-- What follows the end of a block comment. -/
def afterBlock? : List Char → Option (List Char)
  | '*' :: '/' :: rest => some rest
  | _ :: rest => afterBlock? rest
  | [] => none

theorem length_of_afterBlock? {cs rest : List Char} (h : afterBlock? cs = some rest) :
    rest.length < cs.length := by
  fun_induction afterBlock? cs with
  | case1 r => cases h; simp only [List.length_cons]; omega
  | case2 c r _ ih => have := ih h; simp only [List.length_cons]; omega
  | case3 => cases h

/-- The script without block comments. -/
def dropBlocks (cs : List Char) : List Char :=
  match cs with
  | [] => []
  | c :: rest =>
    if c = '/' && rest.head? = some '*' then
      match _ : afterBlock? rest.tail with
      | some after => dropBlocks after
      | none => cs
    else c :: dropBlocks rest
termination_by cs.length
decreasing_by
  · have := length_of_afterBlock? ‹afterBlock? _ = some _›
    simp only [List.length_tail] at this
    simp only [List.length_cons]; omega
  · simp

/-- The script without line comments; `inside` says whether it starts inside one. A comment ends
before the line feed. -/
def dropLines (inside : Bool) : List Char → List Char
  | [] => []
  | c :: rest =>
    if inside then
      if c = '\n' then c :: dropLines false rest else dropLines true rest
    else if c = '-' && rest.head? = some '-' then dropLines true rest
    else c :: dropLines false rest

/-- The script with one space for every run of white space; `blank` says whether the character before
is white space. -/
def collapse (blank : Bool) : List Char → List Char
  | [] => []
  | c :: rest =>
    if Text.isBlank c then
      if blank then collapse true rest else ' ' :: collapse true rest
    else c :: collapse false rest

/-- A script without comments, its words separated by single spaces. -/
def clean (cs : List Char) : List Char :=
  Text.trim (collapse false (dropLines false (dropBlocks cs)))

end ErCanvas.Sql
