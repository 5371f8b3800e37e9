import ErCanvas.Text.Digit

/-! # Arguments of the command line

Every argument is a word, a switch or the mark behind which all arguments are words. A switch has a
short name of one letter, a long name, or both; the beginning of a long name that belongs to one
switch only stands for the whole name. The value of a switch may be attached to it.

* `Switch`: what can be switched.
* `Argument.ofText`: what an argument is by itself.
* `Argument.ofTexts`: what the arguments of a command line are. -/

namespace ErCanvas.CommandLine

/-- What can be switched. -/
inductive Switch where
  | help
  | format
  | output
  | routes
  | verbose
deriving DecidableEq, Repr

namespace Switch

def all : List Switch := [help, format, output, routes, verbose]

/-- The letter of a switch, if it has one. -/
def letter? : Switch → Option Char
  | help => some 'h'
  | format => some 'f'
  | output => some 'o'
  | routes => none
  | verbose => some 'v'

/-- The long name of a switch. -/
def longName : Switch → String
  | help => "--help"
  | format => "--format"
  | output => "--output"
  | routes => "--routes"
  | verbose => "--verbose"

/-- The switch needs a value. -/
def takesValue : Switch → Bool
  | format | output | routes => true
  | help | verbose => false

/-- The switch of a letter. -/
def ofLetter? (c : Char) : Option Switch := all.find? fun s => s.letter? == some c

/-- The switches whose long names begin so. -/
def beginningWith (name : List Char) : List Switch :=
  all.filter fun s => name.isPrefixOf s.longName.toList

end Switch

/-- How a switch is named in an argument. -/
inductive Naming where
  | letter
  | long
deriving DecidableEq, Repr

/-- An argument. -/
inductive Argument where
  | word (text : String)
  /-- All arguments behind it are words. -/
  | mark
  /-- A switch with what is attached to its name. -/
  | switch (naming : Naming) (s : Switch) (attached : Option (List Char))
  /-- A switch that does not exist. -/
  | unknown
deriving DecidableEq, Repr

namespace Argument

/-- The text before the first equals sign, and the text behind it if there is one. -/
def splitEquals (cs : List Char) : List Char × Option (List Char) :=
  match cs.dropWhile (· != '=') with
  | [] => (cs, none)
  | _ :: value => (cs.takeWhile (· != '='), some value)

/-- Digits, at least one. -/
def isWhole (cs : List Char) : Bool :=
  !cs.isEmpty && cs.all fun c => (Text.digitValue? c).isSome

/-- Digits with a point in front of the last ones. -/
def isFraction (cs : List Char) : Bool :=
  match cs.dropWhile fun c => (Text.digitValue? c).isSome with
  | '.' :: rest => isWhole rest
  | _ => false

/-- The text looks like a negative number without its sign; a line may end behind it. -/
def isMagnitude (cs : List Char) : Bool :=
  let cs := if cs.getLast? = some '\n' then cs.dropLast else cs
  isWhole cs || isFraction cs

/-- An argument that no switch begins. -/
def unmatched (text : String) (cs : List Char) : Argument :=
  if isMagnitude cs || ' ' ∈ cs then word text else unknown

/-- A switch by its long name. That several switches are meant is no argument. -/
def ofLong (text : String) (cs : List Char) : Option Argument :=
  let (name, value) := splitEquals cs
  match Switch.beginningWith name with
  | [] => some (unmatched text (cs.drop 1))
  | [s] => some (switch .long s value)
  | _ => none

/-- What is attached to the letter of an argument; an equals sign joins the two. -/
def attached? : List Char → Option (List Char)
  | [] => none
  | '=' :: rest => some rest
  | rest => some rest

/-- What an argument is by itself. -/
def ofText (text : String) : Option Argument :=
  match text.toList with
  | '-' :: '-' :: rest =>
    if rest.isEmpty then some mark else ofLong text ('-' :: '-' :: rest)
  | '-' :: c :: rest =>
    match Switch.ofLetter? c with
    | some s => some (switch .letter s (attached? rest))
    | none => some (unmatched text (c :: rest))
  | _ => some (word text)

/-- What the arguments are, unless one is ambiguous. -/
def ofTexts : List String → Option (List Argument)
  | [] => some []
  | text :: rest => do
    match ← ofText text with
    | mark => return mark :: rest.map word
    | a => return a :: (← ofTexts rest)

end Argument

end ErCanvas.CommandLine
