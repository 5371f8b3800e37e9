import ErCanvas.Json.Reader
import ErCanvas.Text.Blank
import ErCanvas.Text.Case.Lower
import ErCanvas.Text.Case.Upper
import ErCanvas.Web.Target

/-! # Requests and replies

A request has a method, a target and maybe a body with a type. Its body counts only if the type is that
of documents and the body is one. A reply has a status and maybe a document or a file. -/

namespace ErCanvas.Web

/-- How many lists and objects may be open at once where a document is read. The limit of the stack leaves
fewer the deeper down the reader is called, which depends on the server and on what calls the reader. -/
structure Stack where
  /-- In the body of a request. -/
  body : Nat
  /-- In a text that is inside the body. -/
  source : Nat
deriving DecidableEq, Repr

/-- A request. The body shows the bytes that are sent. -/
structure Request where
  method : String
  target : String
  contentType : Option String
  body : Option String
deriving DecidableEq, Repr

/-- What a reply carries. -/
inductive Content where
  | nothing
  | document (v : Json)
  /-- A file to be saved. -/
  | file (name text : String)

/-- A reply. -/
structure Reply where
  status : Nat
  content : Content

namespace Reply

/-- A reply that is a status only. -/
def bare (status : Nat) : Reply := ⟨status, .nothing⟩

/-- A successful reply. -/
def ok (v : Json) : Reply := ⟨200, .document v⟩

/-- A request that is refused for a reason. -/
def refusal (reason : String) : Reply := ⟨400, .document (.obj [("error", .str reason)])⟩

/-- A request that could not be answered. The cause is told if something is missing in the request. -/
def failure (f : Fault) : Reply :=
  match f with
  | .missingKey _ | .missingMember .. => ⟨500, .document (.obj [("error", .str f.message)])⟩
  | _ => bare 500

/-- The reply without what it carries. -/
def head (r : Reply) : Reply := bare r.status

end Reply

/-- The handling of a request, which may end early with a reply. -/
abbrev Handling (α : Type) := Except Reply α

/-- A fault ends the handling. -/
def orFail {α : Type} (o : Outcome α) : Handling α := o.mapError .failure

/-- The reply in which the handling ends. -/
def Handling.reply : Handling Reply → Reply
  | .ok r | .error r => r

/-! ### Bodies -/

/-- The type is that of documents, whatever its parameters are. -/
def isDocumentType (type : String) : Bool :=
  let name := Text.lower (String.ofList (Text.trim (type.toList.takeWhile (· != ';'))))
  name == "application/json" || (name.startsWith "application/" && name.endsWith "+json")

/-- The text of a body without the mark of its byte order. -/
def withoutMark (text : String) : String :=
  match text.toList with
  | '\uFEFF' :: rest => String.ofList rest
  | _ => text

namespace Request

/-- The method, in upper case. -/
def verb (r : Request) : String := String.ofList (Text.upper r.method.toList)

/-- The text of a body that should be a document. -/
def text? (r : Request) : Option String :=
  match r.contentType with
  | some type => if isDocumentType type then r.body else none
  | none => none

/-- The document that a request carries, if there is one. A body of more bytes than `limit`, or one that
is nested too deeply, ends the handling. -/
def document? (limit : Int) (depth : Nat) (r : Request) : Handling (Option Json) :=
  match r.text? with
  | none => .ok none
  | some text =>
    if limit < text.utf8ByteSize then .error (.bare 500)
    else match (Text.documentText? text).map fun text => Json.read (withoutMark text) depth with
      | some (.ok v) => .ok (some v)
      | some (.error (.tooDeep _)) => .error (.bare 500)
      | some (.error _) | none => .ok none

/-- The document that a request carries; none, or one that counts as false, is the empty object. -/
def document (limit : Int) (depth : Nat) (r : Request) : Handling Json := do
  match ← r.document? limit depth with
  | some v => return if v.isTruthy then v else .obj []
  | none => return .obj []

end Request

end ErCanvas.Web
