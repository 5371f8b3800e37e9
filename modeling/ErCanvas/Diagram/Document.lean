import ErCanvas.Diagram.Basic
import ErCanvas.Json.Printer
import ErCanvas.Json.Reader
import ErCanvas.Text.Numeral

/-! # Diagram documents

The text of a diagram, and the diagram of a text. A text that is not a document is refused with the
reason; a document that is not a diagram is refused as a whole. -/

namespace ErCanvas.Diagram

/-- The text of a diagram. -/
def print (schema : Schema Json) (positions zoom pan : Json) : Outcome String := do
  return (← make schema positions zoom pan formatVersion).toJson.print

/-- The zoom of a document: a number, or the text of one. -/
def zoomOf : Json → Outcome Json
  | .str s => do return .num (.float (← Text.readFloat s))
  | v => do return .num (.float (← (← v.number).toBinary64))

/-- The diagram of a document. -/
def ofJson (v : Json) : Outcome Diagram := do
  let view ← v.entry "viewState"
  let schema ← Schema.ofJson (← v.entry "schema")
  let positions ← v.entry "positions"
  let zoom ← zoomOf (← view.entry "zoom")
  let pan ← view.entry "pan"
  let version ← v.entry "version"
  make schema positions zoom pan (.str version.text)

/-- Why a text holds no diagram. -/
inductive Defect where
  /-- The text is not a document. -/
  | unreadable (reason : String)
  /-- The document is not that of a diagram. -/
  | badFormat
deriving DecidableEq, Repr

/-- The wording of a defect. -/
def Defect.message : Defect → String
  | unreadable reason => "Import error: " ++ reason
  | badFormat => "Invalid export file format"

/-- A fault that shows that a document is not that of a diagram. A number that is too large is not such
a fault. -/
def isFormatFault : Fault → Bool
  | .overflow | .outOfRange | .divisionByZero => false
  | _ => true

/-- The document has all keys that it has to have. -/
def hasRequiredKeys : Json → Bool
  | .obj entries => requiredKeys.all fun key => (Json.find? key entries).isSome
  | _ => false

/-- The diagram of a document that has been read. -/
def ofDocument (v : Json) : Outcome (Except Defect Diagram) :=
  if hasRequiredKeys v then
    match ofJson v with
    | .ok d => .ok (.ok d)
    | .error f => if isFormatFault f then .ok (.error .badFormat) else .error f
  else .ok (.error .badFormat)

/-- The diagram of a value that should be the text of a document. No more than `depth` lists and objects
may be open in the text at once. -/
def importFrom (v : Json) (depth : Nat := Json.depthLimit) : Outcome (Except Defect Diagram) :=
  match Json.readValue v depth with
  | .error reason => .ok (.error (.unreadable reason))
  | .ok document => ofDocument document

end ErCanvas.Diagram
