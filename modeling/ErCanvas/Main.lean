import ErCanvas.CommandLine.Run

/-! # The program

Carries out the command line on the real files and streams. -/

namespace ErCanvas

open CommandLine

/-- Reads the standard input to its end. -/
partial def readInput (stream : IO.FS.Stream) (read : String) : IO String := do
  let line ← stream.getLine
  if line.isEmpty then return read else readInput stream (read ++ line)

/-- Reads the source at a path. -/
def readSource (path : String) : IO Source := do
  try
    return .text (Text.spelled (← IO.FS.readFile (Text.unspelled path)))
  catch
    | .noFileOrDirectory .. => return .missing
    | e => throw e

/-- Writes a file. -/
def writeDocument (path document : String) : IO (Except FileFault Unit) := do
  try
    IO.FS.writeFile (Text.unspelled path) (Text.unspelled document)
    return .ok ()
  catch
    | .noFileOrDirectory .. => return .error .missing
    | e => throw e

/-- The real files and streams. Texts are spelled as they come in and unspelled as they go out. -/
def surroundings : Surroundings IO where
  console := .standard
  input := do return Text.spelled (← readInput (← IO.getStdin) "")
  read := readSource
  write := writeDocument

/-- Shows what a run has to show, with its exit code. -/
def finish (r : Result) : IO UInt32 := do
  IO.eprint (Text.unspelled r.transcript.error)
  IO.print (Text.unspelled r.transcript.output)
  match r.ending with
  | .exit code => return code.toUInt32
  | .fileFault _ | .fault _ => return 1

end ErCanvas

/-- Carries out the command line. -/
def main (args : List String) : IO UInt32 := do
  ErCanvas.finish (← ErCanvas.CommandLine.run ErCanvas.surroundings (args.map ErCanvas.Text.spelled))
