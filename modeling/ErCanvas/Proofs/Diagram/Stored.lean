import ErCanvas.Proofs.Diagram.Zoom
import ErCanvas.Proofs.Schema.Readable

/-! # Stored diagrams

The document of a diagram is read as the diagram, up to its zoom, which is clamped again; and its text
is read as the document, if the values in the diagram are readable in their places.

* `make_stored`, `ofJson_toJson`: the parts of the document give the parts of the diagram.
* `ReadFrom`: the parts of the diagram come from the parts of the document.
* `exists_read_of_importFrom`: what is imported is read from the document of the text.
* `Storable`: every value of the diagram is readable in its place.
* `Storable.importFrom_toJson`: the text of a storable diagram is read as the diagram. -/

namespace ErCanvas

open Json (Readable)

/-! ### Points -/

/-- The coordinates of the point are readable. -/
def Point.Legible (d : ℕ) (p : Point) : Prop := Readable d p.x ∧ Readable d p.y

theorem Point.Legible.readable {d : ℕ} {p : Point} (h : p.Legible d) :
    Readable (d + 1) p.toJson := by
  refine .obj (by simp) ?_
  simpa [Legible] using h

theorem Point.legible_ofJson {d : ℕ} {v : Json} {p : Point} (h : Readable (d + 1) v)
    (hp : Point.ofJson v = .ok p) : p.Legible d := by
  obtain ⟨x, hx, hp⟩ := Outcome.bind_eq_ok.1 hp
  obtain ⟨y, hy, hp⟩ := Outcome.bind_eq_ok.1 hp
  cases hp
  exact ⟨h.entry hx, h.entry hy⟩

theorem Point.ofJson_toJson (p : Point) : Point.ofJson p.toJson = .ok p := rfl

namespace Diagram

/-! ### Parts -/

/-- Positions are read from the entries of an object, in their order. -/
theorem positionsOf_eq_ok {v : Json} {ps : List (String × Point)} : positionsOf v = .ok ps ↔
    ∃ entries, v = .obj entries ∧
      List.Forall₂ (fun e q => e.1 = q.1 ∧ Point.ofJson e.2 = .ok q.2) entries ps := by
  have hread : ∀ (e : String × Json) (q : String × Point),
      (Point.ofJson e.2 >>= fun p => .ok (e.1, p)) = .ok q ↔
        e.1 = q.1 ∧ Point.ofJson e.2 = .ok q.2 := by
    rintro e ⟨id, p⟩
    cases Point.ofJson e.2 with
    | error f => simp
    | ok p' => simp
  unfold positionsOf
  cases v with
  | obj entries => simp [Json.entries, Outcome.mapM_eq_ok, hread]
  | _ => simp [Json.entries]

theorem positionsOf_positionsJson (ps : List (String × Point)) :
    positionsOf (positionsJson ps) = .ok ps := by
  refine positionsOf_eq_ok.2 ⟨_, rfl, ?_⟩
  rw [List.forall₂_map_left_iff, List.forall₂_same]
  exact fun q _ => ⟨rfl, q.2.ofJson_toJson⟩

theorem panOf_toJson (p : Point) : panOf p.toJson = .ok p := rfl

variable {d : Diagram} {z z' : Json}

theorem make_stored (hz : clampZoom z = .ok z') :
    make d.schema (positionsJson d.positions) z d.pan.toJson d.version =
      .ok { d with zoom := z' } := by
  rw [make, positionsOf_positionsJson, panOf_toJson, hz]
  rfl

/-- The document of a diagram gives the diagram again, with the zoom that its zoom gives. -/
theorem ofJson_toJson (hv : d.version = formatVersion) (hn : d.schema.Normal)
    (hz : zoomOf d.zoom = .ok z) (hc : clampZoom z = .ok z') :
    ofJson d.toJson = .ok { d with zoom := z' } := by
  have hview : d.toJson.entry "viewState" = .ok (viewJson d.zoom d.pan) := rfl
  have hschema : d.toJson.entry "schema" = .ok d.schema.toJson := rfl
  have hpositions : d.toJson.entry "positions" = .ok (positionsJson d.positions) := rfl
  have hversion : d.toJson.entry "version" = .ok d.version := rfl
  have hzoom : (viewJson d.zoom d.pan).entry "zoom" = .ok d.zoom := rfl
  have hpan : (viewJson d.zoom d.pan).entry "pan" = .ok d.pan.toJson := rfl
  have htext : Json.str d.version.text = d.version := by rw [hv]; rfl
  simp only [ofJson, hview, hschema, hpositions, hversion, Outcome.ok_bind, hzoom, hpan,
    Schema.ofJson_toJson hn, hz, htext, make_stored hc]

/-! ### Texts -/

theorem importFrom_of_read {text : String} {v : Json} (h : Json.read text = .ok v) :
    importFrom (.str text) = ofDocument v := by
  rw [importFrom, Json.readValue, h]
  rfl

/-- What is imported from a text is read from the document of the text. -/
theorem exists_read_of_importFrom {text : String} (h : importFrom (.str text) = .ok (.ok d)) :
    ∃ v, Json.read text = .ok v ∧ ofJson v = .ok d := by
  cases hr : Json.read text with
  | error f => rw [importFrom, Json.readValue, hr] at h; cases h
  | ok v =>
    rw [importFrom_of_read hr, ofDocument] at h
    split at h
    · split at h
      · cases h; exact ⟨v, rfl, ‹_›⟩
      · split at h
        · cases h
        · cases h
    · cases h

/-- The parts of the diagram are read from the entries of the document. -/
structure ReadFrom (v : Json) (d : Diagram) : Prop where
  schema : ∃ w, v.entry "schema" = .ok w ∧ Schema.ofJson w = .ok d.schema
  positions : ∃ w, v.entry "positions" = .ok w ∧ positionsOf w = .ok d.positions
  view : ∃ view, v.entry "viewState" = .ok view ∧
    (∃ u z, view.entry "zoom" = .ok u ∧ zoomOf u = .ok z ∧ clampZoom z = .ok d.zoom) ∧
      ∃ w, view.entry "pan" = .ok w ∧ panOf w = .ok d.pan

theorem readFrom_of_ofJson {v : Json} (h : ofJson v = .ok d) : ReadFrom v d := by
  unfold ofJson at h
  obtain ⟨view, hview, h⟩ := Outcome.bind_eq_ok.1 h
  obtain ⟨w, hw, h⟩ := Outcome.bind_eq_ok.1 h
  obtain ⟨s, hs, h⟩ := Outcome.bind_eq_ok.1 h
  obtain ⟨positions, hpositions, h⟩ := Outcome.bind_eq_ok.1 h
  obtain ⟨u, hu, h⟩ := Outcome.bind_eq_ok.1 h
  obtain ⟨z, hz, h⟩ := Outcome.bind_eq_ok.1 h
  obtain ⟨pan, hpan, h⟩ := Outcome.bind_eq_ok.1 h
  obtain ⟨_, -, h⟩ := Outcome.bind_eq_ok.1 h
  unfold make at h
  obtain ⟨ps, hps, h⟩ := Outcome.bind_eq_ok.1 h
  obtain ⟨z', hz', h⟩ := Outcome.bind_eq_ok.1 h
  obtain ⟨p, hp, h⟩ := Outcome.bind_eq_ok.1 h
  cases h
  exact ⟨⟨w, hw, hs⟩, ⟨positions, hpositions, hps⟩, view, hview, ⟨u, z, hu, hz, hz'⟩, pan, hpan, hp⟩

/-! ### Storable diagrams -/

/-- Every value of the diagram is readable in its place; `k` lists and objects may be opened in the names
of a reference, which stand deepest. -/
structure Storable (k : ℕ) (d : Diagram) : Prop where
  version : d.version = formatVersion
  normal : d.schema.Normal
  names : d.schema.Legible k
  distinct : (d.positions.map Prod.fst).Nodup
  positions : ∀ q ∈ d.positions, q.2.Legible (k + 4)
  zoom : Readable (k + 5) d.zoom
  pan : d.pan.Legible (k + 4)

variable {k : ℕ}

theorem Storable.readable (h : Storable k d) : Readable (k + 7) d.toJson := by
  have hs : Readable (k + 6) d.schema.toJson := readable_schema h.names
  have hp : Readable (k + 6) (positionsJson d.positions) := by
    refine .obj (by simpa [Function.comp_def] using h.distinct) ?_
    rw [List.forall_mem_map]
    exact fun q hq => (h.positions q hq).readable
  have hv : Readable (k + 6) (viewJson d.zoom d.pan) := by
    refine .obj (by simp) ?_
    simpa using ⟨h.zoom, h.pan.readable⟩
  refine .obj (by simp) ?_
  simpa [h.version, formatVersion, Readable.str] using ⟨hs, hp, hv⟩

/-- **The text of a storable diagram gives the diagram again**, with the zoom that its zoom gives. -/
theorem Storable.importFrom_toJson (h : Storable k d) (hk : k + 7 ≤ Json.depthLimit)
    (hz : zoomOf d.zoom = .ok z) (hc : clampZoom z = .ok z') :
    importFrom (.str d.toJson.print) = .ok (.ok { d with zoom := z' }) := by
  have hkeys : hasRequiredKeys d.toJson = true := rfl
  rw [importFrom, Json.readValue_print (h.readable.mono hk)]
  simp only [ofDocument, if_pos hkeys, ofJson_toJson h.version h.normal hz hc]

end Diagram

end ErCanvas
