import ErCanvas.Proofs.Connector.Routing
import ErCanvas.Proofs.Web.Agreement

/-! # Schemas that are accepted and not routed

A schema that is sent to be routed is accepted with names of any kind, and most of them are consulted only
by routing. So a request is replied to with routes if all names that are consulted are texts, and is a
failure if not.

* `AsksRoutes`: a request for the routes of a schema.
* `routes_outcome`: what comes of routing, and of a request for it. -/

namespace ErCanvas.Web

variable {stack : Stack} {s : Schema Json} {positions : Json} {ps : List (String × Place)} {mode : RouteMode}
  {r : Request}

/-- The request posts a schema, with the positions of its cards, to be routed in a mode. -/
structure AsksRoutes (stack : Stack) (s : Schema Json) (positions : Json) (mode : RouteMode) (r : Request) :
    Prop where
  method : r.method = "POST"
  target : r.target = Endpoint.routes.path
  delivered : ∃ data entries, r.document Settings.standard.maxContentLength stack.body = .ok data ∧
    data.entry "schema" = .ok (.obj entries) ∧ Schema.ofJson (.obj entries) = .ok s ∧
    data.entryD "positions" .null = .ok positions ∧
    data.entryD "mode" (.str Settings.standard.routeMode) = .ok (.str mode.name)

/-- The positions that are routed with: the default ones if none are sent. -/
def placesFor (s : Schema Json) (positions : Json) : Json := orElse positions (Layout.ofSchema s)

/-- The routes, or the failure, are replied with. -/
theorem AsksRoutes.reply_eq (h : AsksRoutes stack s positions mode r) : reply .standard stack r =
    Handling.reply (orFail (Route.all s (placesFor s positions) mode .standard Route.standardCell) >>=
      fun x => .ok (.ok (.obj [("routes", .arr (x.1.map Route.toJson))]))) := by
  obtain ⟨data, entries, hdata, hschema, hs, hpositions, hmode⟩ := h.delivered
  have hin : schemaIn data = .ok s := by
    rw [schemaIn, hschema]
    simp only [hs]
  rw [reply_of_delivered (by simp) h.method h.target hdata]
  simp only [Endpoint.handle, routing, hin, hpositions, hmode, orFail_ok, Outcome.ok_bind, ofJson?_name]
  rfl

theorem exists_arePlaces_placesFor (hps : ArePlaces positions ps) (hm : Moderate s ps)
    (hs : s.tables.length < 2 ^ 63) : ∃ ps', ArePlaces (placesFor s positions) ps' ∧ Moderate s ps' := by
  unfold placesFor orElse
  split
  · exact ⟨ps, hps, hm⟩
  · exact ⟨_, Layout.arePlaces_ofSchema s, hm.columns, Layout.near_positions (by rwa [List.length_map])⟩

open Route (Coarse Draws pair pairPlaces pairPositions)

/-- **What comes of routing** any schema with moderate places. If all names that are consulted are texts,
there is one route for each relationship with a connector, in order, unless the grid is too coarse for
any; the others are passed over. If not, the first name that is no text is the cause of a failure. A request
for the routes is replied to with them, or it is a failure of the server for such a name. -/
theorem routes_outcome (hs : s.tables.length < 2 ^ 63) (hm : Moderate s ps) (hps : ArePlaces positions ps)
    (mode : RouteMode) (width height : ℤ) {cell : ℤ} (hcell : 0 < cell) :
    let all := Route.all s positions mode ⟨.int width, .int height⟩ (.int cell)
    let places := placesFor s positions
    ((∀ v ∈ s.consulted positions, v.isText) → ∃ cs, Connected s positions s.relationships cs ∧
      (¬ Coarse mode cell ∨ cs = [] → ∃ routes notes, all = .ok (routes, notes) ∧
        List.Forall₂ (fun e route => Draws mode e.1 e.2 route) cs routes) ∧
      (Coarse mode cell → cs ≠ [] → all = .error .overflow)) ∧
    (∀ v, nonText? (s.consulted positions) = some v →
      all = .error v.notLowered ∨ Coarse mode cell ∧ all = .error .overflow) ∧
    ∀ stack r, AsksRoutes stack s positions mode r →
      ((∀ v ∈ s.consulted places, v.isText) → ∃ routes notes,
        Route.all s places mode .standard Route.standardCell = .ok (routes, notes) ∧
          reply .standard stack r = ⟨200, .document (.obj [("routes", .arr (routes.map Route.toJson))])⟩) ∧
      ∀ v, nonText? (s.consulted places) = some v →
        reply .standard stack r = ⟨500, .document (.obj [("error", .str v.notLowered.message)])⟩ := by
  refine ⟨fun h => Route.all_of_texts hps hm h mode width height hcell,
    fun v h => Route.all_of_nonText? hps hm mode width height hcell h, fun stack r hr => ?_⟩
  obtain ⟨ps', hps', hm'⟩ := exists_arePlaces_placesFor hps hm hs
  have hfine : ¬ Coarse mode 20 := fun h => (Number.lt_wholeLimit (n := 20) (by decide)).not_ge h.2
  refine ⟨fun h => ?_, fun v h => ?_⟩
  · obtain ⟨cs, -, hroutes, -⟩ := @Route.all_of_texts _ _ _ 20 hps' hm' h mode 3000 2000 (by decide)
    obtain ⟨routes, notes, hroutes, -⟩ := hroutes (.inl hfine)
    have hroutes : Route.all s (placesFor s positions) mode .standard Route.standardCell =
        .ok (routes, notes) := hroutes
    refine ⟨routes, notes, hroutes, ?_⟩
    rw [hr.reply_eq, hroutes]
    rfl
  · have herror : Route.all s (placesFor s positions) mode .standard Route.standardCell =
        .error v.notLowered :=
      (@Route.all_of_nonText? _ _ _ _ 20 hps' hm' mode 3000 2000 (by decide) h).resolve_right
        fun hcoarse => hfine hcoarse.1
    rw [hr.reply_eq, herror]
    rfl

/-! Two tables and a relationship of texts, and a relationship with a number for a name. -/

theorem routes_outcome_pair : pair.tables.length < 2 ^ 63 ∧ Moderate pair pairPlaces ∧
    ArePlaces pairPositions pairPlaces ∧ ∃ routes notes,
      Route.all pair pairPositions .grid ⟨.int 3000, .int 2000⟩ (.int 20) = .ok (routes, notes) ∧
        routes ≠ [] := by
  have hm := Route.moderate_pair
  have hps := Route.arePlaces_pair
  have hs : pair.tables.length < 2 ^ 63 := by decide
  obtain ⟨cs, hcs, hroutes, -⟩ := (@routes_outcome pair pairPositions pairPlaces hs hm hps .grid 3000 2000 20
    (by decide)).1 (Route.named_pair.isText_consulted _)
  have hfine : ¬ Coarse .grid 20 := fun h => (Number.lt_wholeLimit (n := 20) (by decide)).not_ge h.2
  obtain ⟨routes, notes, hall, hrel⟩ := hroutes (.inl hfine)
  refine ⟨hs, hm, hps, routes, notes, hall, ?_⟩
  rintro rfl
  cases hrel
  cases hcs with
  | skip hc _ => exact nomatch hc.symm.trans Route.connector_pair

/-- A schema as it is sent, with a relationship from a table whose name is a number. -/
def numberedEntries : List (String × Json) :=
  [("tables", .arr []), ("relationships", .arr [.obj [("fromTable", .int 1), ("fromColumn", .str "a"),
    ("toTable", .str "b"), ("toColumn", .str "c")]])]

def numbered : Schema Json := ⟨[], [⟨.int 1, .str "a", .str "b", .str "c"⟩]⟩

def numberedDocument : List (String × Json) :=
  [("schema", .obj numberedEntries), ("positions", .obj []), ("mode", .str "orthogonal")]

/-- The schema is accepted, but routing fails, and so does a request for the routes. -/
theorem numbered_accepted_not_routed : Schema.ofJson (.obj numberedEntries) = .ok numbered ∧
    ArePlaces (.obj []) [] ∧
    Route.all numbered (.obj []) .orthogonal .standard Route.standardCell =
      .error (.missingMember "int" "lower") ∧
    reply .standard ⟨960, 960⟩ (posting .routes (.obj numberedDocument)) =
      ⟨500, .document (.obj [("error", .str "'int' object has no attribute 'lower'")])⟩ := by
  have hschema : Schema.ofJson (.obj numberedEntries) = .ok numbered := rfl
  have hnumber : (Number.int 1).ReadsBack := Number.readsBack_int (Nat.one_lt_pow (by decide) (by decide))
  have hreadable : Json.Readable 5 (.obj numberedDocument) := by
    simp [numberedDocument, numberedEntries, hnumber]
  have hdata := @document_posting ⟨960, 960⟩ .routes numberedDocument (hreadable.mono (by decide))
    (by simp [numberedDocument]) (by decide +kernel) (size_print_le (by decide +kernel))
  have hasks : AsksRoutes ⟨960, 960⟩ numbered (.obj []) .orthogonal
      (posting .routes (.obj numberedDocument)) :=
    ⟨rfl, rfl, _, _, hdata, rfl, hschema, rfl, rfl⟩
  refine ⟨hschema, ⟨List.nodup_nil, [], rfl, .nil⟩, rfl, ?_⟩
  rw [hasks.reply_eq]
  rfl

end ErCanvas.Web
