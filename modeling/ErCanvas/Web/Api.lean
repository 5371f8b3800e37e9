import ErCanvas.Conversion
import ErCanvas.Settings
import ErCanvas.Web.Exchange

/-! # The web interface

Schemas are extracted, routed, exported and imported on request. Every end point has a path of its own
and a method. There is also a place for files, which holds none.

* `Endpoint.handle`: what an end point does with the document of a request.
* `Destination.find`: where a request goes.
* `reply`: the reply to a request. -/

namespace ErCanvas.Web

/-- An end point. -/
inductive Endpoint where
  | health
  | script
  | declaration
  | routes
  | saving
  | opening
deriving DecidableEq, Repr

namespace Endpoint

/-- The end point at a path. -/
def atPath? : String → Option Endpoint
  | "api/health" => some health
  | "api/parse_sql" => some script
  | "api/parse_json" => some declaration
  | "api/routes" => some routes
  | "api/export" => some saving
  | "api/import" => some opening
  | _ => none

/-- The methods of an end point. -/
def verbs : Endpoint → List String
  | health => ["GET", "HEAD", "OPTIONS"]
  | _ => ["POST", "OPTIONS"]

end Endpoint

/-! ### Destinations -/

/-- What is at a path. -/
inductive Resource where
  | endpoint (e : Endpoint)
  /-- The place of a file. -/
  | file
deriving DecidableEq, Repr

namespace Resource

/-- The name of a file: it starts with something else than a slash, and is in one line. -/
def isFileName : List Char → Bool
  | [] => false
  | c :: rest => c != '/' && !rest.contains '\n'

/-- What is at a path. -/
def atPath? (path : List Char) : Option Resource :=
  match Endpoint.atPath? (String.ofList path) with
  | some e => some (endpoint e)
  | none =>
    let folder := "static/".toList
    if folder.isPrefixOf path && isFileName (path.drop folder.length) then some file else none

/-- The methods of what is at a path. -/
def verbs : Resource → List String
  | endpoint e => e.verbs
  | file => ["GET", "HEAD", "OPTIONS"]

end Resource

/-- Where a request goes. -/
inductive Destination where
  | resource (r : Resource)
  /-- To the same path with its slashes merged. -/
  | merged
  /-- Nowhere, because of the method. -/
  | notAllowed
  /-- Nowhere, because a connection is asked for that stays open in both directions. -/
  | notTwoWay
  | nowhere
deriving DecidableEq, Repr

namespace Destination

/-- Where a request goes by a path as it is. -/
def atPath (path : List Char) (isTwoWay : Bool) (verb : String) : Destination :=
  match Resource.atPath? path with
  | none => nowhere
  | some r =>
    if verb ∉ r.verbs then notAllowed
    else if isTwoWay then notTwoWay
    else resource r

/-- Where a request goes. If there is nothing at the path, its slashes are merged. -/
def find (t : Target) (verb : String) : Destination :=
  match atPath t.path t.isTwoWay verb with
  | nowhere =>
    match atPath (mergeSlashes t.path) t.isTwoWay verb with
    | resource _ => merged
    | d => d
  | d => d

end Destination

/-! ### Extracting -/

/-- What the reader of a message is told about a source without a schema. -/
def advice : SourceDefect → String
  | .script .noStatements => "未找到有效的 CREATE TABLE 语句。请确保 SQL 中包含表定义。"
  | .declaration (.unreadable _) => "JSON 格式错误，请检查括号和逗号是否正确。"
  | d => d.message

/-- The reply with the schema of a source. -/
def extractionReply : Except SourceDefect (Schema String) → Reply
  | .ok s => .ok (.obj [("schema", s.stored.toJson), ("positions", Layout.ofSchema s)])
  | .error d => ⟨400, .document (.obj [("error", .str (advice d)), ("details", .str d.message)])⟩

/-- Extracts the schema of the source at a key, where `depth` lists and objects may be open at once. -/
def extraction (format : SourceFormat) (key : String) (depth : Nat) (data : Json) : Handling Reply := do
  let source ← orFail (data.entryD key (.str ""))
  return extractionReply (extractAs format source depth).1

/-! ### Schemas in requests -/

/-- A fault that shows that a value is no stored schema. -/
def isSchemaFault : Fault → Bool
  | .missingKey _ | .missingMember .. | .wrongKind => true
  | _ => false

/-- The schema that the document of a request holds. -/
def schemaIn (data : Json) : Handling (Schema Json) :=
  match data.entry "schema" with
  | .ok (.obj entries) =>
    match Schema.ofJson (.obj entries) with
    | .ok s => .ok s
    | .error f => .error (if isSchemaFault f then .refusal "缺少有效的 schema" else .failure f)
  | _ => .error (.refusal "缺少有效的 schema")

/-- A value, or another if it counts as false. -/
def orElse (v other : Json) : Json := if v.isTruthy then v else other

/-! ### Handling -/

/-- Routes the relationships of a schema. -/
def routing (settings : Settings) (data : Json) : Handling Reply := do
  let schema ← schemaIn data
  let positions := orElse (← orFail (data.entryD "positions" .null)) (Layout.ofSchema schema)
  let mode ← orFail (data.entryD "mode" (.str settings.routeMode))
  match RouteMode.ofJson? mode with
  | none => throw (.refusal ("不支持的布线模式: " ++ mode.text))
  | some m =>
    let (routes, _) ←
      orFail (Route.all schema positions m settings.canvas (.int settings.cellSize))
    return .ok (.obj [("routes", .arr (routes.map Route.toJson))])

/-- The name that a diagram is saved under. -/
def fileName : String := "schema-diagram.json"

/-- Saves a diagram. The file is encoded, which no half of a pair can be. -/
def saving (data : Json) : Handling Reply := do
  let schema ← schemaIn data
  let view := orElse (← orFail (data.entryD "viewState" .null)) (.obj [])
  let positions := orElse (← orFail (data.entryD "positions" .null)) (.obj [])
  let zoom ← orFail (view.entryD "zoom" Diagram.standardZoom)
  let pan ← orFail (view.entryD "pan" .null)
  let text ← orFail (Diagram.print schema positions zoom pan)
  if Text.Stream.bytes.takes text then return ⟨200, .file fileName text⟩
  else throw (.failure .unencodable)

/-- Opens a saved diagram, where `depth` lists and objects may be open at once. -/
def opening (depth : Nat) (data : Json) : Handling Reply := do
  match ← orFail (Diagram.importFrom (← orFail (data.entryD "document" (.str ""))) depth) with
  | .ok d =>
    return .ok (.obj [("schema", d.schema.toJson), ("positions", Diagram.positionsJson d.positions),
      ("viewState", Diagram.viewJson d.zoom d.pan)])
  | .error defect => return .refusal defect.message

/-- The reply of a program that is running. -/
def healthy : Reply := .ok (.obj [("status", .str "ok")])

/-- What an end point does with the document of a request. -/
def Endpoint.handle (settings : Settings) (stack : Stack) : Endpoint → Json → Handling Reply
  | health, _ => .ok healthy
  | script, data => extraction .script "sql" stack.source data
  | declaration, data => extraction .declaration "json" stack.source data
  | routes, data => routing settings data
  | saving, data => Web.saving data
  | opening, data => Web.opening stack.source data

/-- The reply of an end point. Only the one for health leaves the body aside. -/
def Endpoint.reply (settings : Settings) (stack : Stack) (e : Endpoint) (r : Request) : Reply :=
  if e = health then healthy
  else Handling.reply do
    let data ← r.document settings.maxContentLength stack.body
    e.handle settings stack data

/-- The reply of what is at a path. -/
def Resource.reply (settings : Settings) (stack : Stack) (r : Request) : Resource → Reply
  | endpoint e => e.reply settings stack r
  | file => .bare 404

/-- The reply to a request. -/
def reply (settings : Settings) (stack : Stack) (r : Request) : Reply :=
  match Destination.find (.ofText r.target) r.verb with
  | .resource place =>
    match r.verb with
    | "OPTIONS" => .bare 200
    | "HEAD" => (place.reply settings stack r).head
    | _ => place.reply settings stack r
  | .merged => .bare 308
  | .notAllowed => .bare 405
  | .notTwoWay => .bare 400
  | .nowhere => .bare 404

end ErCanvas.Web
