import ErCanvas.CommandLine.Options
import ErCanvas.Json.Printer

/-! # Running a command line

A source is read from a file or from the standard input and converted; the document is written to a
file or to the standard output. Progress is reported on the standard output, or on the standard error
if the document goes to the standard output. Notes are shown on demand, as lines on the standard
error. A run works on whatever surroundings there are: the real ones, or files that are kept in memory.

* `Options.perform`: all of a run between reading the source and writing the file.
* `run`: a whole run. -/

namespace ErCanvas.CommandLine

/-- Why a file cannot be read or written. -/
inductive FileFault where
  | missing
  | isFolder
  | notFolder
  | tooLong
  | unnameable
deriving DecidableEq, Repr

/-- What is found where the source should be. -/
inductive Source where
  | text (s : String)
  | folder
  | missing
  /-- The path of the source is too long. -/
  | tooLong

/-- How a run ends. -/
inductive Ending where
  | exit (code : Nat)
  | fileFault (f : FileFault)
  | fault (f : Fault)

/-! ### Channels -/

/-- The two channels of output. -/
inductive Channel where
  | output
  | error
deriving DecidableEq, Repr

/-- What has been shown on the channels. -/
structure Transcript where
  output : String
  error : String
deriving DecidableEq, Repr

namespace Transcript

def empty : Transcript := ⟨"", ""⟩

/-- One more line on a channel. -/
def line (t : Transcript) (c : Channel) (text : String) : Transcript :=
  match c with
  | .output => { t with output := t.output ++ text ++ "\n" }
  | .error => { t with error := t.error ++ text ++ "\n" }

end Transcript

/-- The streams behind the channels. -/
structure Console where
  output : Text.Stream
  error : Text.Stream

namespace Console

/-- Both channels are encoded, and halves of pairs go to the standard error only. -/
def standard : Console := ⟨.bytes, .escapedBytes⟩

/-- The stream behind a channel. -/
def stream (k : Console) : Channel → Text.Stream
  | .output => k.output
  | .error => k.error

end Console

/-- A part of a run, which shows lines and may end the run. -/
abbrev Showing := EStateM Ending Transcript

/-- Shows a line. One that the stream does not take ends the run. -/
def Console.say (k : Console) (c : Channel) (text : String) : Showing Unit := do
  if (k.stream c).takes text then modify (·.line c ((k.stream c).written text))
  else throw (.fault .unencodable)

/-! ### From the source to the document -/

/-- A text in which the line feed alone ends a line. -/
def withLineFeeds (text : String) : String :=
  (text.replace "\r\n" "\n").replace "\r" "\n"

/-- The line that shows a note. -/
def noteLine (n : Note) : String := "DEBUG:" ++ n.source ++ ":" ++ n.message

/-- A document that is to be written to a file. -/
structure Delivery where
  path : String
  document : String

namespace Options

/-- The channel of progress. -/
def channel (o : Options) : Channel := if o.output = .value "-" then .error else .output

/-- The name of the format of the source; no names if nothing is given. -/
def formatName (o : Options) : Json :=
  match o.format with
  | .value f => .str ((f.map SourceFormat.name).getD "auto")
  | .nothing => .arr []

/-- The name of the mode of routing; no names if nothing is given. -/
def routesName (o : Options) : Json :=
  match o.routes with
  | .value m => .str ((m.map RouteMode.name).getD "none")
  | .nothing => .arr []

/-- Shows something that has been reported. -/
def report (o : Options) (k : Console) : Conversion.Event → Showing Unit
  | .progress line => k.say o.channel line
  | .note n => if o.isVerbose then k.say .error (noteLine n) else pure ()

/-- What is done with the document: it is shown, or it is to be written. -/
def deliver (o : Options) (k : Console) (document : String) : Showing Delivery := do
  match o.output with
  | .value "-" =>
    k.say .output document
    throw (.exit 0)
  | .value path => return ⟨path, document⟩
  | .nothing => throw (.fault .wrongKind)

/-- Converts a source. -/
def convert (o : Options) (k : Console) (source : String) : Showing Delivery := do
  let converted :=
    Conversion.convertTo (k.stream o.channel) (.str source) o.formatName o.routesName
  converted.events.forM (o.report k)
  match converted.result with
  | .error f => throw (.fault f)
  | .ok (.error d) =>
    k.say .output ("\n❌ Error: " ++ d.message)
    throw (.exit 1)
  | .ok (.ok document) => o.deliver k document.print

/-- Shows what the source is read from. -/
def announce (o : Options) (k : Console) : Showing Unit :=
  if o.input = "-" then k.say .error "📝 Reading schema from stdin (press Ctrl+D when done)..."
  else k.say o.channel ("📝 Reading schema from: " ++ o.input)

/-- Carries out the options on what has been found as the source. -/
def perform (o : Options) (k : Console) : Source → Showing Delivery
  | .text s => do
    o.announce k
    o.convert k (withLineFeeds s)
  | .folder => do
    o.announce k
    throw (.fileFault .isFolder)
  | .missing => do
    k.say .output ("❌ Error: File not found: " ++ o.input)
    throw (.exit 1)
  | .tooLong => throw (.fileFault .tooLong)

end Options

/-! ### Whole runs -/

/-- What a run works on. -/
structure Surroundings (m : Type → Type) where
  console : Console
  /-- The text of the standard input. -/
  input : m String
  /-- What is at a path. -/
  read : String → m Source
  /-- Writes a text to the file at a path. -/
  write : String → String → m (Except FileFault Unit)

/-- A finished run. -/
structure Result where
  transcript : Transcript
  ending : Ending

/-- How the program is called. -/
def usage : String :=
  "usage: er-canvas [-h] [-f auto|sql|json] [-o OUTPUT] [--routes none|orthogonal|grid] [-v] input"

/-- The result of a run that is stopped before it begins: it shows how the program is called. -/
def Stop.result : Stop → Result
  | help => ⟨Transcript.empty.line .output usage, .exit 0⟩
  | misuse => ⟨Transcript.empty.line .error usage, .exit 2⟩

/-- The result of a part of a run with which the run is finished. -/
def Showing.result (part : Showing Ending) (t : Transcript) : Result :=
  match part t with
  | .ok e t | .error e t => ⟨t, e⟩

section

variable {m : Type → Type} [Monad m] (around : Surroundings m)

/-- Writes the document to its file. The text of a file is encoded, so that nothing is left in the file of
a document with half of a pair. -/
def Delivery.write (d : Delivery) (t : Transcript) : m Result := do
  let isWhole := Text.Stream.bytes.takes d.document
  match ← around.write d.path (if isWhole then d.document else "") with
  | .error f => return ⟨t, .fileFault f⟩
  | .ok () =>
    if isWhole then
      return Showing.result (do
        around.console.say .output ("\n✅ Diagram saved to: " ++ d.path)
        return .exit 0) t
    else return ⟨t, .fault .unencodable⟩

/-- Carries out the options. -/
def Options.run (o : Options) : m Result := do
  let source ← if o.input = "-" then .text <$> around.input else around.read o.input
  match o.perform around.console source .empty with
  | .error e t => return ⟨t, e⟩
  | .ok d t => d.write around t

/-- Carries out a command line. -/
def run (args : List String) : m Result :=
  match Options.ofArguments args with
  | .ok o => o.run around
  | .error s => return s.result

end

end ErCanvas.CommandLine
