import ErCanvas.CommandLine.Argument
import ErCanvas.Conversion

/-! # Options of the command line

One argument names the source; switches name its format, the output and the mode of routing. Arguments
are taken one after the other, and the first that cannot be taken ends the reading, as does the
request for help.

* `Options.ofArguments`: the options of a command line, or why there are none. -/

namespace ErCanvas.CommandLine

/-- What a switch is given. -/
inductive Given (α : Type) where
  | value (v : α)
  /-- The mark of words is no value: a switch that has it attached is given nothing. -/
  | nothing
deriving DecidableEq, Repr

/-- What a command line asks for. -/
structure Options where
  input : String
  /-- The format of the source; none if it is to be detected. -/
  format : Given (Option SourceFormat)
  output : Given String
  /-- The mode of routing; none if nothing is to be routed. -/
  routes : Given (Option RouteMode)
  isVerbose : Bool
deriving DecidableEq, Repr

/-- Why a command line is not carried out. -/
inductive Stop where
  | help
  | misuse
deriving DecidableEq, Repr

/-- What has been read of a command line. -/
structure Draft where
  input : Option String
  format : Given (Option SourceFormat)
  output : Given String
  routes : Given (Option RouteMode)
  isVerbose : Bool
  /-- There are arguments that nothing has been done with. -/
  hasExtras : Bool

namespace Draft

def empty : Draft := ⟨none, .value none, .value "schema-diagram.json", .value none, false, false⟩

/-- The draft with an argument that nothing is done with. -/
def withExtra (d : Draft) : Draft := { d with hasExtras := true }

/-- The draft with one more word: the first one is the input. -/
def withWord (d : Draft) (text : String) : Draft :=
  match d.input with
  | none => { d with input := some text }
  | some _ => d.withExtra

/-- Sets a switch that has no value. -/
def setFlag (d : Draft) : Switch → Except Stop Draft
  | .help => .error .help
  | .verbose => .ok { d with isVerbose := true }
  | _ => .error .misuse

/-- Sets a switch to a value. -/
def setValue (d : Draft) (s : Switch) (value : String) : Except Stop Draft :=
  match s, value with
  | .output, "--" => .ok { d with output := .nothing }
  | .output, value => .ok { d with output := .value value }
  | .format, "--" => .ok { d with format := .nothing }
  | .format, "auto" => .ok { d with format := .value none }
  | .format, "sql" => .ok { d with format := .value (some .script) }
  | .format, "json" => .ok { d with format := .value (some .declaration) }
  | .routes, "--" => .ok { d with routes := .nothing }
  | .routes, "none" => .ok { d with routes := .value none }
  | .routes, "orthogonal" => .ok { d with routes := .value (some .orthogonal) }
  | .routes, "grid" => .ok { d with routes := .value (some .grid) }
  | _, _ => .error .misuse

/-- The options, if the command line is complete. -/
def options (d : Draft) : Except Stop Options :=
  match d.input, d.hasExtras with
  | some input, false => .ok ⟨input, d.format, d.output, d.routes, d.isVerbose⟩
  | _, _ => .error .misuse

end Draft

/-- What a row of letters in one argument switches. -/
structure Row where
  flags : List Switch
  /-- The last switch of the row, if it needs a value, and the value attached to it. -/
  last : Option (Switch × Option (List Char))

namespace Row

/-- A single switch with what is attached to it. A flag cannot have anything attached. -/
def single (s : Switch) (attached : Option (List Char)) : Except Stop Row :=
  if s.takesValue then .ok ⟨[], some (s, attached)⟩
  else if attached.isSome then .error .misuse
  else .ok ⟨[s], none⟩

/-- The row of a switch and what follows it in the argument. Behind a flag there are further letters,
all of them of switches; behind a switch that needs a value there is the value. -/
def ofLetters (s : Switch) : List Char → Except Stop Row
  | [] => single s none
  | c :: rest =>
    if s.takesValue then single s (some (c :: rest))
    else match Switch.ofLetter? c with
      | some next => (ofLetters next rest).map fun r => { r with flags := s :: r.flags }
      | none => .error .misuse

/-- The row of an argument that is a switch. Only letters can be followed by letters. -/
def ofSwitch : Naming → Switch → Option (List Char) → Except Stop Row
  | .letter, s, some (c :: rest) => ofLetters s (c :: rest)
  | _, s, attached => single s attached

end Row

namespace Draft

/-- Sets the flags of a row. -/
def setFlags (d : Draft) (r : Row) : Except Stop Draft := r.flags.foldlM setFlag d

/-- Takes the arguments one after the other. -/
def takeAll (d : Draft) : List Argument → Except Stop Draft
  | [] => .ok d
  | .word text :: .mark :: rest =>
    if d.input.isNone then takeAll (d.withWord text) rest
    else takeAll d.withExtra rest
  | .word text :: rest => takeAll (d.withWord text) rest
  | .mark :: .word text :: rest =>
    if d.input.isNone then takeAll (d.withWord text) rest
    else takeAll d.withExtra rest
  | .mark :: rest => takeAll d.withExtra rest
  | .unknown :: rest => takeAll d.withExtra rest
  | .switch naming s attached :: rest => do
    let r ← Row.ofSwitch naming s attached
    match r.last, rest with
    | none, rest => takeAll (← d.setFlags r) rest
    | some (s, some value), rest =>
      takeAll (← (← d.setFlags r).setValue s (String.ofList value)) rest
    | some (s, none), .word value :: rest =>
      takeAll (← (← d.setFlags r).setValue s value) rest
    | some (_, none), _ => throw .misuse

end Draft

/-- The options of a command line. -/
def Options.ofArguments (args : List String) : Except Stop Options :=
  match Argument.ofTexts args with
  | none => .error .misuse
  | some arguments => do (← Draft.empty.takeAll arguments).options

end ErCanvas.CommandLine
