import ErCanvas.Connector.Route
import ErCanvas.Declaration
import ErCanvas.Diagram.Document
import ErCanvas.Layout
import ErCanvas.Sql.Script

/-! # From a source to a diagram

A source is a script or a declarative document. Its schema is extracted, laid out in the default way,
and, on demand, its relationships are routed; the result is the document of the diagram. On the way
the progress is reported, line by line, and a line that cannot be written ends the conversion.

* `extractAs`: the schema of a source in a known format.
* `convert`: the document of a source, with what is reported.
* `convertTo`: a conversion whose progress is written to a stream. -/

namespace ErCanvas

/-- A format of sources. -/
inductive SourceFormat where
  | script
  | declaration
deriving DecidableEq, Repr

namespace SourceFormat

def name : SourceFormat → String
  | script => "sql"
  | declaration => "json"

/-- The format of a source, judged by its first character that is not white space. -/
def detect (source : String) : SourceFormat :=
  if (Text.trimStart source.toList).head? = some '\x7b' then declaration else script

/-- The format that a name stands for: all names but one stand for scripts. -/
def ofName (name : String) : SourceFormat := if name = "json" then declaration else script

end SourceFormat

/-- Why a source has no schema. -/
inductive SourceDefect where
  | script (d : Sql.Defect)
  | declaration (d : Declaration.Defect)
deriving DecidableEq, Repr

/-- The wording of a defect. -/
def SourceDefect.message : SourceDefect → String
  | script d => d.message
  | declaration d => d.message

/-- The schema of a value that should be a source in the given format, and the notes. No more than
`depth` lists and objects may be open at once in a document. -/
def extractAs (format : SourceFormat) (source : Json) (depth : Nat := Json.depthLimit) :
    Except SourceDefect (Schema String) × List Note :=
  match format with
  | .script => (Sql.extractFrom source).map (·.mapError .script) id
  | .declaration => (Declaration.extractFrom source depth).map (·.mapError .declaration) id

namespace Conversion

/-- What is reported during a conversion. -/
inductive Event where
  | progress (line : String)
  | note (n : Note)

/-- A conversion: what has been reported, and the document of the diagram unless the source has a
defect. A conversion that cannot be done as it is asked for ends with a fault. -/
structure Report where
  events : List Event
  result : Outcome (Except SourceDefect Json)

/-- The report with more reported before. -/
def Report.after (events : List Event) (r : Report) : Report := { r with events := events ++ r.events }

/-- What is reported about the schema that has been found. -/
def foundLines (s : Schema String) : List String :=
  ("✅ Found " ++ toString s.tables.length ++ " table(s):") ::
    (s.tables.map fun t =>
      "   - " ++ t.name ++ " (" ++ toString t.columns.length ++ " columns)") ++
    ["   - " ++ toString s.relationships.length ++ " relationships"]

/-- The document of a fresh diagram. -/
def document (s : Schema String) : Outcome Json := do
  let d ← Diagram.make s.stored (Layout.ofSchema s) Diagram.standardZoom .null
    Diagram.formatVersion
  return d.toJson

/-- The document with its routes. -/
def withRoutes (routes : List Route) : Json → Json
  | .obj entries => .obj (entries ++ [("routes", .arr (routes.map Route.toJson))])
  | v => v

/-- The document of a fresh diagram with the routes in a mode. -/
def routed (s : Schema String) (mode : Json) (d : Json) : Report :=
  let head := Event.progress ("\n🧭 Routing relationships (" ++ mode.text ++ ")...")
  match Route.allIn s.stored (Layout.ofSchema s) mode .standard Route.standardCell with
  | .error f => ⟨[head], .error f⟩
  | .ok (routes, notes) =>
    let last := Event.progress ("   - " ++ toString routes.length ++ " route(s)")
    ⟨head :: notes.map Event.note ++ [last], .ok (.ok (withRoutes routes d))⟩

/-- The document of a schema, with routes unless they are `none`. -/
def finished (s : Schema String) (routes : Json) : Report :=
  match document s with
  | .error f => ⟨[], .error f⟩
  | .ok d => if routes.same (.str "none") then ⟨[], .ok (.ok d)⟩ else routed s routes d

/-- The format named, or the one detected if none is. -/
def formatName (source format : Json) : Outcome String :=
  match format, source with
  | .str "auto", .str text => .ok (SourceFormat.detect text).name
  | .str "auto", v => .error (.missingMember v.kind "lstrip")
  | .str name, _ => .ok name
  | v, _ => .error (.missingMember v.kind "upper")

/-- Converts a source. The routes are `none` or a mode. No more than `depth` lists and objects may be open
at once in a document. -/
def convert (source format routes : Json) (depth : Nat := Json.depthLimit) : Report :=
  match formatName source format with
  | .error f => ⟨[], .error f⟩
  | .ok name =>
    let upperName := String.ofList (Text.upper name.toList)
    let head := Event.progress ("🔍 Parsing " ++ upperName ++ " schema...")
    let (extracted, notes) := extractAs (SourceFormat.ofName name) source depth
    let events := head :: notes.map Event.note
    match extracted with
    | .error d => ⟨events, .ok (.error d)⟩
    | .ok s => (finished s routes).after (events ++ (foundLines s).map Event.progress)

/-- The lines of progress. -/
def Report.progress (r : Report) : List String :=
  r.events.filterMap fun
    | .progress line => some line
    | .note _ => none

/-! ### Progress that is written -/

/-- The event can be written. Notes go elsewhere, where every text can be. -/
def Event.fits (out : Text.Stream) : Event → Bool
  | progress line => out.takes line
  | note _ => true

/-- The report as far as its progress can be written. The first line that cannot be ends the
conversion. -/
def Report.writtenTo (out : Text.Stream) (r : Report) : Report :=
  if r.events.all (·.fits out) then r else ⟨r.events.takeWhile (·.fits out), .error .unencodable⟩

/-- Converts a source while the progress is written to a stream. -/
def convertTo (out : Text.Stream) (source format routes : Json) (depth : Nat := Json.depthLimit) :
    Report :=
  (convert source format routes depth).writtenTo out

end Conversion

end ErCanvas
