import Mathlib.Data.String.Basic
import ErCanvas.Proofs.Connector.Positions
import ErCanvas.Proofs.Conversion.Progress
import ErCanvas.Proofs.Json.Depth
import ErCanvas.Proofs.Schema.Rearranged
import ErCanvas.Proofs.Text.Ascii
import ErCanvas.Web.Api

/-! # The web interface and the conversion

A source is sent to the web interface in two requests: the first one is replied to with its schema and the
default positions, and the second one sends these back and is replied to with the routes. What comes back
is what a conversion of the source gives, though the schema and the positions have been read from documents
in between, in which entries may have changed their order. The two part where a limit stands between them:
a text that is too deep for one reader need not be too deep for the other, which is called from elsewhere,
and a schema may be sent back in a body that is too large, though the source was not.

* `Posts`: a request from whose body a document is read.
* `reply_extraction`: the reply with a schema.
* `reply_routing`: the reply with routes.
* `posts_posting`: a printed document in the body of a request.
* `web_agrees`: both replies beside a conversion. -/

namespace ErCanvas

namespace Web

open Conversion (document fresh withRoutes formatGiven modeGiven)
open Json (Rearranged Readable fixed_str)

/-! ### Requests -/

/-- The path of an end point. -/
def Endpoint.path : Endpoint → String
  | health => "/api/health"
  | script => "/api/parse_sql"
  | declaration => "/api/parse_json"
  | routes => "/api/routes"
  | saving => "/api/export"
  | opening => "/api/import"

/-- The request posts a document to an end point: it is what is read from the body, up to the order of its
entries. -/
structure Posts (stack : Stack) (e : Endpoint) (document : Json) (r : Request) : Prop where
  method : r.method = "POST"
  target : r.target = e.path
  isRead : ∃ body text data, r.text? = some body ∧ Text.documentText? body = some text ∧
    Json.read (withoutMark text) stack.body = .ok data ∧ Rearranged document data

/-- The body of the request is within the limit on its size. -/
def Request.Fits (r : Request) : Prop :=
  ∀ body, r.text? = some body → body.utf8ByteSize ≤ Settings.standard.maxContentLength

theorem find_path {e : Endpoint} (he : e ≠ .health) :
    Destination.find (.ofText e.path) "POST" = .resource (.endpoint e) := by
  cases e with
  | health => exact absurd rfl he
  | script => decide +kernel
  | declaration => decide +kernel
  | routes => decide +kernel
  | saving => decide +kernel
  | opening => decide +kernel

variable {stack : Stack} {e : Endpoint} {es : List (String × Json)} {r : Request}

/-- What comes of the document of a request that is posted to an end point. -/
theorem reply_of_document {handling : Handling Json} (he : e ≠ .health) (hmethod : r.method = "POST")
    (htarget : r.target = e.path)
    (hdata : r.document Settings.standard.maxContentLength stack.body = handling) :
    reply .standard stack r = (handling >>= e.handle .standard stack).reply := by
  have hverb : r.verb = "POST" := by
    rw [Request.verb, hmethod]
    decide +kernel
  -- the equation lemma of `reply` would compare the names of all methods
  delta reply
  simp only [htarget, hverb, find_path he, Resource.reply, Endpoint.reply, if_neg he, hdata]
  rfl

/-- A document that is posted to an end point, and is delivered, is handled. -/
theorem reply_of_delivered {data : Json} (he : e ≠ .health) (hmethod : r.method = "POST")
    (htarget : r.target = e.path)
    (hdata : r.document Settings.standard.maxContentLength stack.body = .ok data) :
    reply .standard stack r = (e.handle .standard stack data).reply :=
  reply_of_document he hmethod htarget hdata

/-- An object that is read from the body is delivered, if it is within the limit. -/
theorem document_of_read {body text : String} (hbody : r.text? = some body)
    (htext : Text.documentText? body = some text)
    (hread : Json.read (withoutMark text) stack.body = .ok (.obj es)) (hfits : r.Fits) :
    r.document Settings.standard.maxContentLength stack.body = .ok (.obj es) := by
  simp only [Request.document, Request.document?, hbody, if_neg (not_lt.2 (hfits body hbody)), htext,
    Option.map_some, hread]
  -- an object that counts as false is the empty one, which it is taken for
  cases es with
  | nil => rfl
  | cons => rfl

/-- **What is posted is handled**, if it is within the limit. -/
theorem Posts.reply_eq (h : Posts stack e (.obj es) r) (hfits : r.Fits) (he : e ≠ .health) :
    ∃ data, Rearranged (.obj es) data ∧ reply .standard stack r = (e.handle .standard stack data).reply := by
  obtain ⟨body, text, data, hbody, htext, hread, hr⟩ := h.isRead
  obtain ⟨es', rfl, -⟩ := hr.find?
  exact ⟨_, hr, reply_of_delivered he h.method h.target (document_of_read hbody htext hread hfits)⟩

/-- A body over the limit is not handled. -/
theorem Posts.reply_of_not_fits {document : Json} (h : Posts stack e document r) (hfits : ¬ r.Fits)
    (he : e ≠ .health) : reply .standard stack r = .bare 500 := by
  obtain ⟨body, -, -, hbody, -⟩ := h.isRead
  have hlimit : Settings.standard.maxContentLength < body.utf8ByteSize := by
    refine lt_of_not_ge fun hle => hfits fun body' hbody' => ?_
    rwa [← Option.some.inj (hbody.symm.trans hbody')]
  have hdata : r.document Settings.standard.maxContentLength stack.body = .error (.bare 500) := by
    simp only [Request.document, Request.document?, hbody, if_pos hlimit]
    rfl
  exact reply_of_document he h.method h.target hdata

theorem orFail_ok {α : Type} (a : α) : orFail (.ok a) = .ok a := rfl

/-! ### Extraction -/

/-- The end point that extracts the schemas of a format. -/
def endpointOf : SourceFormat → Endpoint
  | .script => .script
  | .declaration => .declaration

/-- The key at which that end point expects the source. -/
def keyOf : SourceFormat → String
  | .script => "sql"
  | .declaration => "json"

/-- The document that a source is sent in. -/
def sending (format : SourceFormat) (text : String) : Json := .obj [(keyOf format, .str text)]

variable {format : SourceFormat} {text : String}

theorem endpointOf_ne (format : SourceFormat) : endpointOf format ≠ .health := by
  cases format with
  | script => exact nofun
  | declaration => exact nofun

/-- **The reply to a source** is the one for what is extracted from it. -/
theorem reply_extraction (h : Posts stack (endpointOf format) (sending format text) r) (hfits : r.Fits) :
    reply .standard stack r = extractionReply (extractAs format (.str text) stack.source).1 := by
  obtain ⟨data, hdata, hreply⟩ := h.reply_eq hfits (endpointOf_ne format)
  cases format with
  | script =>
    have hsource : data.entryD "sql" (.str "") = .ok (.str text) := (fixed_str _).entryD hdata rfl
    rw [hreply]
    simp only [endpointOf, Endpoint.handle, extraction, hsource]
    rfl
  | declaration =>
    have hsource : data.entryD "json" (.str "") = .ok (.str text) := (fixed_str _).entryD hdata rfl
    rw [hreply]
    simp only [endpointOf, Endpoint.handle, extraction, hsource]
    rfl

/-- **Both readers take a source as the same**, unless it is too deep for one of them. -/
theorem extractAs_eq {d d' : ℕ} (h : format = .declaration → Json.Shallow (min d d') text) :
    extractAs format (.str text) d = extractAs format (.str text) d' := by
  cases format with
  | script => rfl
  | declaration =>
    have hshallow := h rfl
    have hread : Json.read text d = Json.read text d' :=
      (hshallow.read_eq (min_le_left _ _)).trans (hshallow.read_eq (min_le_right _ _)).symm
    simp only [extractAs, Declaration.extractFrom, Json.readValue, hread]

/-! ### Routing -/

/-- The document that a schema and positions are sent back in. -/
def sendingBack (schema positions : Json) (mode : RouteMode) : Json :=
  .obj [("schema", schema), ("positions", positions), ("mode", .str mode.name)]

variable {s : Schema String} {mode : RouteMode} {data : Json}

theorem schemaIn_eq (hs : s.Normal) {positions : Json}
    (h : Rearranged (sendingBack s.stored.toJson positions mode) data) : schemaIn data = .ok s.stored := by
  obtain ⟨w, hw, hr⟩ : ∃ w, data.entry "schema" = .ok w ∧ Rearranged s.stored.toJson w := h.entry rfl
  have hread := Schema.reads_stored hs w hr
  obtain ⟨es, rfl, -⟩ := hr.find?
  rw [schemaIn, hw]
  simp only [hread]

theorem ofSchema_stored (s : Schema String) : Layout.ofSchema s.stored = Layout.ofSchema s := by
  simp only [Layout.ofSchema, Schema.stored, Schema.map, List.map_map]
  rfl

theorem ofJson?_name (mode : RouteMode) : RouteMode.ofJson? (.str mode.name) = some mode := by
  cases mode with
  | orthogonal => rfl
  | grid => rfl

/-- The places that are routed with are the default ones, also where there are none. -/
theorem samePlaces_orElse {positions : Json} (h : Rearranged (Layout.ofSchema s) positions) :
    SamePlaces (Layout.ofSchema s) (orElse positions (Layout.ofSchema s.stored)) := by
  unfold orElse
  split
  · exact (Layout.arePlaces_ofSchema s).samePlaces h
  · rw [ofSchema_stored]
    exact (Layout.arePlaces_ofSchema s).samePlaces (.refl _)

/-- **The reply to a schema in the default layout** is its routes. -/
theorem reply_routing (hs : s.Normal) {routes : List Route} {notes : List Note}
    (hroutes : Route.all s.stored (Layout.ofSchema s) mode .standard Route.standardCell =
      .ok (routes, notes))
    (h : Posts stack .routes (sendingBack s.stored.toJson (Layout.ofSchema s) mode) r) (hfits : r.Fits) :
    reply .standard stack r = .ok (.obj [("routes", .arr (routes.map Route.toJson))]) := by
  obtain ⟨data, hdata, hreply⟩ := h.reply_eq hfits (by simp)
  obtain ⟨positions, hpositions, hr⟩ : ∃ w, data.entryD "positions" .null = .ok w ∧
      Rearranged (Layout.ofSchema s) w := hdata.entryD rfl
  have hmode : data.entryD "mode" (.str Settings.standard.routeMode) = .ok (.str mode.name) :=
    (fixed_str _).entryD hdata rfl
  have hall : Route.all s.stored (orElse positions (Layout.ofSchema s.stored)) mode
      Settings.standard.canvas (.int Settings.standard.cellSize) = .ok (routes, notes) :=
    (Route.all_congr (samePlaces_orElse hr) mode .standard Route.standardCell).symm.trans hroutes
  rw [hreply]
  simp only [Endpoint.handle, routing, schemaIn_eq hs hdata, hpositions, hmode, orFail_ok, Outcome.ok_bind,
    ofJson?_name, hall]
  rfl

/-! ### Printed documents -/

/-- The request that posts a document in its printed form. -/
def posting (e : Endpoint) (v : Json) : Request := ⟨"POST", e.path, some "application/json", some v.print⟩

/-- A printed object begins with its bracket and a new line. -/
theorem exists_print_eq (hes : es ≠ []) :
    ∃ rest, (Json.obj es).print = String.ofList (['\x7b', '\n', ' ', ' '] ++ rest) := by
  obtain ⟨⟨key, v⟩, es, rfl⟩ := List.exists_cons_of_ne_nil hes
  simp only [Json.print, Json.write, Json.newLine, List.cons_append]
  exact ⟨_, rfl⟩

/-- The first bytes of a printed object show that it is written in units of one byte. -/
theorem documentText?_print (hes : es ≠ []) (hmark : Text.halfMark ∉ (Json.obj es).write 0) :
    Text.documentText? (Json.obj es).print = some (Json.obj es).print := by
  have hspelled : Text.spelled (Json.obj es).print = (Json.obj es).print :=
    Text.spelled_of_notMem (by rwa [Json.print, String.toList_ofList])
  obtain ⟨rest, hprint⟩ := exists_print_eq hes
  have hsize : 4 = ['\x7b', '\n', ' ', ' '].utf8Encode.size := by decide
  have hstart : (['\x7b', '\n', ' ', ' '].utf8Encode).toList = [0x7b, 0x0a, 0x20, 0x20] := by
    decide +kernel
  rw [hprint] at hspelled ⊢
  rw [Text.documentText?, String.toUTF8, String.toByteArray_ofList, List.utf8Encode_append,
    ByteArray.extract_append_eq_left hsize, hstart]
  exact congrArg some hspelled

theorem withoutMark_print (hes : es ≠ []) :
    withoutMark (Json.obj es).print = (Json.obj es).print := by
  obtain ⟨rest, hprint⟩ := exists_print_eq hes
  rw [hprint, withoutMark, String.toList_ofList]
  rfl

theorem text?_posting (e : Endpoint) (v : Json) : (posting e v).text? = some v.print := by
  have htype : isDocumentType "application/json" = true := by decide +kernel
  simp only [Request.text?, posting, htype, if_true]

theorem read_posting (hv : Readable stack.body (.obj es)) (hes : es ≠ []) :
    Json.read (withoutMark (Json.obj es).print) stack.body = .ok (.obj es) := by
  rw [withoutMark_print hes, Json.read_print hv]

/-- **A printed object is posted**, if it is readable and has no mark. -/
theorem posts_posting (hv : Readable stack.body (.obj es)) (hes : es ≠ [])
    (hmark : Text.halfMark ∉ (Json.obj es).write 0) : Posts stack e (.obj es) (posting e (.obj es)) where
  method := rfl
  target := rfl
  isRead := ⟨_, _, .obj es, text?_posting e _, documentText?_print hes hmark, read_posting hv hes, .refl _⟩

theorem fits_posting_iff {v : Json} :
    (posting e v).Fits ↔ v.print.utf8ByteSize ≤ Settings.standard.maxContentLength :=
  ⟨fun h => h _ (text?_posting e v), fun h body hbody => by
    rwa [← Option.some.inj ((text?_posting e v).symm.trans hbody)]⟩

/-- A source is posted to the end point of its format. -/
theorem posts_sending (hbody : 1 ≤ stack.body) (hmark : Text.halfMark ∉ (sending format text).write 0) :
    Posts stack (endpointOf format) (sending format text)
      (posting (endpointOf format) (sending format text)) := by
  have hv : Readable 1 (sending format text) := by simp [sending]
  exact posts_posting (hv.mono hbody) (by simp) hmark

theorem document_posting (hv : Readable stack.body (.obj es)) (hes : es ≠ [])
    (hmark : Text.halfMark ∉ (Json.obj es).write 0)
    (hsize : (Json.obj es).print.utf8ByteSize ≤ Settings.standard.maxContentLength) :
    (posting e (.obj es)).document Settings.standard.maxContentLength stack.body = .ok (.obj es) :=
  document_of_read (text?_posting e _) (documentText?_print hes hmark) (read_posting hv hes)
    (fits_posting_iff.2 hsize)

/-- A printed document is within the limit if its characters are. -/
theorem size_print_le {v : Json} (hv : String.utf8Len (v.write 0) ≤ 16777216) :
    v.print.utf8ByteSize ≤ Settings.standard.maxContentLength := by
  have hlimit : Settings.standard.maxContentLength = 16777216 := rfl
  rw [Json.print, String.utf8ByteSize_ofList, hlimit]
  exact_mod_cast hv

/-! ### Both requests -/

/-- **The web interface and the conversion agree**, however deep a document may be for each of them. A
source that neither reader finds too deep is sent to the end point of its format, under the standard
settings, and the conversion comes to its end with its progress written. Either the conversion ends with an
error, and the reply is a refusal with the wording of the error as its details; or the conversion ends with a
document, the reply has the schema and the positions of the document, and whenever exactly these are sent
back with the mode of the conversion, the reply has the routes of the document, unless they are sent in a
body over the limit; then it is a failure of the server. No text is so long as the limit on its length. -/
theorem web_agrees (stack : Stack) (depth : ℕ) (out : Text.Stream) (mode : RouteMode)
    (hlength : text.length < 2 ^ 63)
    (hshallow : format = .declaration → Json.Shallow (min stack.source depth) text)
    (h : Posts stack (endpointOf format) (sending format text) r) (hfits : r.Fits)
    (hwritten : (Conversion.convertTo out (.str text) (.str format.name) (.str mode.name) depth).result ≠
      .error .unencodable) :
    let result := (Conversion.convertTo out (.str text) (.str format.name) (.str mode.name) depth).result
    (∃ d, result = .ok (.error d) ∧ reply .standard stack r =
        ⟨400, .document (.obj [("error", .str (advice d)), ("details", .str d.message)])⟩) ∨
      ∃ v schema positions routes, result = .ok (.ok v) ∧ v.entry "schema" = .ok schema ∧
        v.entry "positions" = .ok positions ∧ v.entry "routes" = .ok routes ∧
        reply .standard stack r =
          ⟨200, .document (.obj [("schema", schema), ("positions", positions)])⟩ ∧
        ∀ r', Posts stack .routes (sendingBack schema positions mode) r' →
          (r'.Fits → reply .standard stack r' = ⟨200, .document (.obj [("routes", routes)])⟩) ∧
          (¬ r'.Fits → reply .standard stack r' = .bare 500) := by
  intro result
  obtain ⟨hsame, hfault⟩ := Conversion.result_convertTo out text (some format) (some mode) depth
  -- no name of a table ends the conversion, which would end it before the document is there
  have hresult : result = (Conversion.convert (.str text) (formatGiven (some format))
      (modeGiven (some mode)) depth).result := by
    refine hsame fun hout s hs t ht => Bool.eq_false_iff.2 fun hhalf => ?_
    exact hwritten (hfault hout ⟨s, hs, t, ht, hhalf⟩)
  rw [Conversion.result_convert] at hresult
  have hreply := reply_extraction h hfits
  rw [extractAs_eq hshallow] at hreply
  cases he : (extractAs format (.str text) depth).1 with
  | error d =>
    rw [he] at hreply
    exact .inl ⟨d, by rw [hresult, Conversion.formatOf, he], hreply⟩
  | ok s =>
    obtain ⟨routes, notes, hroutes, -⟩ := @Route.exists_resolved s mode _ (fits_of_extractAs he) hlength
    rw [he] at hreply
    refine .inr ⟨withRoutes routes (fresh s).toJson, s.stored.toJson, Layout.ofSchema s,
      .arr (routes.map Route.toJson), ?_, rfl, ?_, rfl, hreply, fun r' h' => ⟨fun hfits' => ?_,
        fun hfits' => ?_⟩⟩
    · rw [hresult, Conversion.formatOf, he]
      exact Conversion.result_finished_some hroutes
    · exact congrArg Except.ok (Conversion.positionsJson_fresh s)
    · exact reply_routing (Conversion.built_of_extractAs he).normal hroutes h' hfits'
    · exact h'.reply_of_not_fits hfits' (by simp)

/-! Posts with their authors, sent in printed documents. -/

theorem readable_sendingBack {n : ℕ} (hs : s.Built) (h : s.Fits n) (hn : n < 2 ^ 63) (mode : RouteMode) :
    Readable 7 (sendingBack s.stored.toJson (Layout.ofSchema s) mode) := by
  have hparts := (Json.readable_obj.1 (Conversion.storable_fresh hs h hn).readable).2
  have hschema : Readable 6 s.stored.toJson := hparts _ (.tail _ (.head _))
  have hpositions : Readable 6 (Layout.ofSchema s) := by
    rw [← Conversion.positionsJson_fresh]
    exact hparts _ (.tail _ (.tail _ (.head _)))
  refine .obj (by simp) ?_
  simp only [List.forall_mem_cons]
  exact ⟨hschema, hpositions, .str _ _, nofun⟩

theorem web_agrees_blog : ∃ v routes,
    (Conversion.convertTo .bytes (.str Diagram.blogScript) (.str "sql") (.str "grid")).result =
        .ok (.ok v) ∧
      v.entry "routes" = .ok routes ∧
      reply .standard ⟨960, 960⟩ (posting .script (sending .script Diagram.blogScript)) =
        .ok (.obj [("schema", Diagram.blog.stored.toJson),
          ("positions", Layout.ofSchema Diagram.blog)]) ∧
      reply .standard ⟨960, 960⟩ (posting .routes
          (sendingBack Diagram.blog.stored.toJson (Layout.ofSchema Diagram.blog) .grid)) =
        .ok (.obj [("routes", routes)]) := by
  have hextracted : (extractAs .script (.str Diagram.blogScript)).1 = .ok Diagram.blog :=
    Outcome.mapError_eq_ok.2 Diagram.extractFrom_blog
  have hlength : Diagram.blogScript.length < 2 ^ 63 := by decide +kernel
  have hreadable := readable_sendingBack Diagram.built_blog (fits_of_extractAs hextracted) hlength .grid
  have hsent : Posts ⟨960, 960⟩ (endpointOf .script) (sending .script Diagram.blogScript)
      (posting .script (sending .script Diagram.blogScript)) :=
    posts_sending (by decide) (by decide +kernel)
  have hback : Posts ⟨960, 960⟩ .routes
      (sendingBack Diagram.blog.stored.toJson (Layout.ofSchema Diagram.blog) .grid)
      (posting .routes (sendingBack Diagram.blog.stored.toJson (Layout.ofSchema Diagram.blog) .grid)) :=
    posts_posting (hreadable.mono (by decide)) (by simp) (by decide +kernel)
  have hsentFits : (posting .script (sending .script Diagram.blogScript)).Fits :=
    fits_posting_iff.2 (size_print_le (by decide +kernel))
  have hbackFits : (posting .routes
      (sendingBack Diagram.blog.stored.toJson (Layout.ofSchema Diagram.blog) .grid)).Fits :=
    fits_posting_iff.2 (size_print_le (by decide +kernel))
  have hnames : ∀ t ∈ Diagram.blog.tables, Text.hasHalf t.name = false := by decide +kernel
  obtain ⟨w, hw⟩ : ∃ w, (Conversion.convertTo .bytes (.str Diagram.blogScript) (.str "sql")
      (.str "grid")).result = .ok (.ok w) := by
    have hsame := (Conversion.result_convertTo .bytes Diagram.blogScript (some .script) (some .grid)
      Json.depthLimit).1 fun _ s hs => by cases hs.symm.trans hextracted; exact hnames
    obtain ⟨-, hok⟩ := Conversion.convert_total Diagram.blogScript (some .script) (some .grid)
      Json.depthLimit hlength
    obtain ⟨-, w, -, hw, -⟩ := hok _ hextracted
    exact ⟨w, hsame.trans hw⟩
  have hscript : SourceFormat.script = .declaration →
      Json.Shallow (min 960 Json.depthLimit) Diagram.blogScript := nofun
  have hreply := reply_extraction hsent hsentFits
  rw [extractAs_eq hscript, hextracted] at hreply
  rcases web_agrees ⟨960, 960⟩ Json.depthLimit .bytes .grid hlength hscript hsent hsentFits
    (hw ▸ nofun) with ⟨d, -, hd⟩ | ⟨v, schema, positions, routes, hv, -, -, hroutes, hok, hagain⟩
  · rw [hd] at hreply
    cases hreply
  · rw [hok] at hreply
    cases hreply
    exact ⟨v, routes, hv, hroutes, hok, (hagain _ hback).1 hbackFits⟩

end Web

end ErCanvas
