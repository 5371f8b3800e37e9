import ErCanvas.Proofs.Connector.Resolved
import ErCanvas.Proofs.Diagram.Import
import ErCanvas.Proofs.Diagram.RoundTrip

/-! # Every conversion ends

A text, given in a format or for the format to be detected, is converted without a fault: to the error of
its reader, or to the document of a diagram, with routes if they are asked for. The document is imported
again, with its routes or without them, as the schema that has been read, in the default layout.

* `fresh`, `document_eq`: the diagram of a schema and its document.
* `importFrom_withRoutes`: routes in a document are passed over by an import.
* `convert_total`: how every conversion ends. -/

namespace ErCanvas

open Json (Readable)

/-! ### Drawn routes in documents -/

/-- A number that can be computed with is one that a document can give. -/
theorem Number.Plain.regular {x : Number} (h : x.Plain) : x.Regular := by
  cases x with
  | float z => exact h
  | int n =>
    have habs : |n| < |(10 : ℤ) ^ 309| := lt_of_lt_of_le h Diagram.wholeLimit_le
    have hnat : n.natAbs < ((10 : ℤ) ^ 309).natAbs := by
      rw [Int.abs_eq_natAbs, Int.abs_eq_natAbs] at habs
      exact_mod_cast habs
    exact hnat.trans (Diagram.regular_pow (k := 309) (by decide))

theorem Point.Plain.legible {p : Point} (h : p.Plain) (d : ℕ) : p.Legible d := by
  obtain ⟨x, y, rfl, hx, hy⟩ := h
  exact ⟨.num d hx.regular.readsBack, .num d hy.regular.readsBack⟩

theorem Route.Plain.readable {route : Route} (h : route.Plain) (d : ℕ) :
    Readable (d + 3) route.toJson := by
  have hpoints : ∀ p ∈ route.points, Readable (d + 1) p.toJson :=
    fun p hp => ((h.points p hp).legible d).readable
  have hfinish : Readable (d + 2) route.finish.toJson := (h.finish.legible (d + 1)).readable
  refine .obj (by simp) ?_
  simpa using ⟨hpoints, h.arrow.regular.readsBack, hfinish⟩

namespace Conversion

open Diagram

/-! ### Fresh diagrams -/

/-- The diagram of a schema in the default layout, neither zoomed nor panned. -/
def fresh (s : Schema String) : Diagram :=
  ⟨formatVersion, s.stored, cards (Layout.positions (s.tables.map Table.id)), standardZoom,
    Place.point (0, 0)⟩

variable {s : Schema String} {n : ℕ} {routes : List Route}

theorem document_eq (s : Schema String) : document s = .ok (fresh s).toJson := by
  simp only [document, make, positionsOf_arePlaces (Layout.arePlaces_ofSchema s), clampZoom_standard]
  rfl

/-- The positions of the diagram are the default ones. -/
theorem positionsJson_fresh (s : Schema String) :
    positionsJson (fresh s).positions = Layout.ofSchema s := by
  simp only [positionsJson, fresh, cards, Layout.ofSchema, Layout.toJson, List.map_map]
  rfl

theorem storable_fresh (hs : s.Built) (h : s.Fits n) (hn : n < 2 ^ 63) : Storable 0 (fresh s) := by
  have hlimit : ∀ k : ℤ, |k| ≤ 2 ^ 50 → k.natAbs < 10 ^ Fault.digitLimit := fun k hk =>
    (Number.Plain.regular (x := .int k) (Number.lt_wholeLimit (hk.trans (by norm_num))))
  refine storable_cards hs (Layout.nodup_positions _) restorable_standard fun q hq => ?_
  rcases List.mem_cons.1 hq with rfl | hq
  · exact ⟨hlimit 0 (by norm_num), hlimit 0 (by norm_num)⟩
  · obtain ⟨e, he, rfl⟩ := List.mem_map.1 hq
    have hnear := (moderate_stored h hn).places e he
    exact ⟨hlimit _ hnear.1, hlimit _ hnear.2⟩

theorem importFrom_fresh (hs : s.Built) (h : s.Fits n) (hn : n < 2 ^ 63) :
    importFrom (.str (fresh s).toJson.print) = .ok (.ok (fresh s)) :=
  (storable_fresh hs h hn).importFrom_toJson (by decide) rfl clampZoom_standard

/-- **The routes in a document** are passed over when it is imported. -/
theorem importFrom_withRoutes {d : Diagram} (hd : Storable 0 d) (h : ∀ route ∈ routes, route.Plain) :
    importFrom (.str (withRoutes routes d.toJson).print) = importFrom (.str d.toJson.print) := by
  have hroutes : Readable 6 (.arr (routes.map Route.toJson)) := by
    refine .arr ?_
    rw [List.forall_mem_map]
    exact fun route hroute => (h route hroute).readable 2
  have hwith : Readable 7 (withRoutes routes d.toJson) := by
    have hparts := (Json.readable_obj.1 hd.readable).2
    refine .obj (by simp) ?_
    rw [List.forall_mem_append]
    exact ⟨hparts, by simpa using hroutes⟩
  -- the entry at the end is read with the others, but never looked up
  rw [importFrom_of_read (Json.read_print (hwith.mono (by decide))),
    importFrom_of_read (Json.read_print (hd.readable.mono (by decide)))]
  rfl

/-! ### Formats and modes by name -/

/-- How a format is given; the one to be detected has a name of its own. -/
def formatGiven : Option SourceFormat → Json
  | none => .str "auto"
  | some format => .str format.name

/-- How a mode is given, or that there shall be no routes. -/
def modeGiven : Option RouteMode → Json
  | none => .str "none"
  | some mode => .str mode.name

/-- The format that is given, or the one that is detected. -/
def formatOf (text : String) : Option SourceFormat → SourceFormat
  | none => .detect text
  | some format => format

theorem ofName_name (format : SourceFormat) : SourceFormat.ofName format.name = format := by
  cases format with
  | script => rfl
  | declaration => rfl

theorem formatName_formatGiven (text : String) (format : Option SourceFormat) :
    formatName (.str text) (formatGiven format) = .ok (formatOf text format).name := by
  rcases format with - | - | -
  · rfl
  · rfl
  · rfl

theorem result_convert (text : String) (format : Option SourceFormat) (routes : Json) (depth : ℕ) :
    (convert (.str text) (formatGiven format) routes depth).result =
      match (extractAs (formatOf text format) (.str text) depth).1 with
      | .error d => .ok (.error d)
      | .ok s => (finished s routes).result := by
  simp only [convert, formatName_formatGiven, ofName_name]
  cases (extractAs (formatOf text format) (.str text) depth).1 with
  | error d => rfl
  | ok s => rfl

theorem built_of_extractAs {format : SourceFormat} {v : Json} {depth : ℕ}
    (h : (extractAs format v depth).1 = .ok s) : s.Built := by
  cases format with
  | script => exact .script (Outcome.mapError_eq_ok.1 h)
  | declaration => exact .declaration (Outcome.mapError_eq_ok.1 h)

theorem message_ne (d : SourceDefect) : d.message ≠ "" := by
  cases d with
  | script d =>
    cases d with
    | noStatements => decide
    | notText kind =>
      exact (by simp : "Parse error: expected string or bytes-like object, got '" ++ kind ++ "'" ≠ "")
  | declaration d => exact Declaration.message_ne d

/-! ### Conversions -/

theorem result_finished_none (s : Schema String) :
    (finished s (modeGiven none)).result = .ok (.ok (fresh s).toJson) := by
  rw [finished, document_eq]
  rfl

theorem result_finished_some {mode : RouteMode} {notes : List Note}
    (h : Route.all s.stored (Layout.ofSchema s) mode .standard Route.standardCell =
      .ok (routes, notes)) :
    (finished s (modeGiven (some mode))).result = .ok (.ok (withRoutes routes (fresh s).toJson)) := by
  have hin : Route.allIn s.stored (Layout.ofSchema s) (modeGiven (some mode)) .standard
      Route.standardCell = .ok (routes, notes) := by
    cases mode with
    | orthogonal => exact h
    | grid => exact h
  have hmode : (modeGiven (some mode)).same (.str "none") = false := by
    cases mode with
    | orthogonal => rfl
    | grid => rfl
  simp only [finished, document_eq, hmode, routed, hin]
  rfl

/-- The document is imported as that of the schema in the default layout. -/
def Restores (s : Schema String) (v : Json) : Prop :=
  ∃ d, importFrom (.str v.print) = .ok (.ok d) ∧ d.schema = s.stored ∧
    positionsJson d.positions = Layout.ofSchema s

/-- There is one route for each relationship whose names are found, in order, and it leads from the start
of the connector to its end. -/
def DrawsResolved (s : Schema String) (mode : RouteMode) (routes : List Route) : Prop :=
  List.Forall₂ (fun r route => ∃ c,
    Connector.of? s.stored (Layout.ofSchema s) (r.map Json.str) = .ok (some c) ∧
      Route.Draws mode (r.map Json.str) c route) (s.relationships.filter s.resolves) routes

/-- **How every conversion ends.** Where the reader of the format, given or detected, has an error, the
conversion ends with it. Where there is a schema, the conversion ends with the document of the schema in
the default layout, and if routes are asked for, with one for each relationship whose names are found.
With its routes and without them, the document is imported again as that of the schema. No text is so
long as the limit. -/
theorem convert_total (text : String) (format : Option SourceFormat) (mode : Option RouteMode)
    (depth : ℕ) (hlength : text.length < 2 ^ 63) :
    let result := (convert (.str text) (formatGiven format) (modeGiven mode) depth).result
    let extracted := (extractAs (formatOf text format) (.str text) depth).1
    (∀ d, extracted = .error d → d.message ≠ "" ∧ result = .ok (.error d)) ∧
      ∀ s, extracted = .ok s → ∃ document v, Conversion.document s = .ok document ∧
        result = .ok (.ok v) ∧ Restores s document ∧ Restores s v ∧ (mode = none → v = document) ∧
        ∀ m, mode = some m → ∃ routes, v = withRoutes routes document ∧ DrawsResolved s m routes := by
  intro result extracted
  have hresult : result = _ := result_convert text format (modeGiven mode) depth
  refine ⟨fun d hd => ⟨message_ne d, ?_⟩, fun s hs => ?_⟩
  · have hd : (extractAs (formatOf text format) (.str text) depth).1 = .error d := hd
    rw [hresult, hd]
  · have hs : (extractAs (formatOf text format) (.str text) depth).1 = .ok s := hs
    have hfits := fits_of_extractAs hs
    have hbuilt := built_of_extractAs hs
    have hfresh : Restores s (fresh s).toJson :=
      ⟨_, importFrom_fresh hbuilt hfits hlength, rfl, positionsJson_fresh s⟩
    rw [hresult, hs]
    refine ⟨(fresh s).toJson, ?_⟩
    cases mode with
    | none =>
      exact ⟨_, document_eq s, result_finished_none s, hfresh, hfresh, fun _ => rfl, nofun⟩
    | some mode =>
      obtain ⟨routes, notes, hall, hdraws, hplain⟩ := @Route.exists_resolved s mode _ hfits hlength
      have hstorable := storable_fresh hbuilt hfits hlength
      have hwith : Restores s (withRoutes routes (fresh s).toJson) := by
        rw [Restores, importFrom_withRoutes hstorable hplain]
        exact hfresh
      refine ⟨_, document_eq s, result_finished_some hall, hfresh, hwith, nofun, ?_⟩
      rintro m ⟨⟩
      exact ⟨routes, rfl, hdraws⟩

end Conversion

end ErCanvas
