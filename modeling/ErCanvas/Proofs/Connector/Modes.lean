import ErCanvas.Proofs.Connector.Clear
import ErCanvas.Proofs.Connector.Drawn

/-! # Both modes draw the same connectors

Direct lines and lines on the grid are computed in different ways, and differ between their ends. What is
drawn is the same in both modes: a line for each relationship with a connector, in their order, from the
start of the connector to its end by value.

* `Connected`: the relationships with a connector, in order.
* `Route.exists_all`, `all_eq_overflow`: what is drawn in a mode, or that nothing is.
* `Route.Alike`, `modes_agree`: the two modes. -/

namespace ErCanvas

variable {s : Schema Json} {positions : Json} {ps : List (String × Place)} {r : Relationship Json}
  {c : Connector}

/-! ### Connected relationships -/

/-- The second list has the relationships of the first that have a connector, in order, with their
connectors; looking for the connectors of the others has found none. -/
inductive Connected (s : Schema Json) (positions : Json) :
    List (Relationship Json) → List (Relationship Json × Connector) → Prop
  | nil : Connected s positions [] []
  | skip {r rs cs} : Connector.of? s positions r = .ok none → Connected s positions rs cs →
      Connected s positions (r :: rs) cs
  | draw {r c rs cs} : Connector.of? s positions r = .ok (some c) → Connected s positions rs cs →
      Connected s positions (r :: rs) ((r, c) :: cs)

namespace Connected

variable {rs : List (Relationship Json)} {cs : List (Relationship Json × Connector)}

theorem exists_of_found (h : ∀ r ∈ rs, ∃ found, Connector.of? s positions r = .ok found) :
    ∃ cs, Connected s positions rs cs := by
  induction rs with
  | nil => exact ⟨[], .nil⟩
  | cons r rs ih =>
    obtain ⟨⟨found, hfound⟩, h⟩ := List.forall_mem_cons.1 h
    obtain ⟨cs, hcs⟩ := ih h
    cases found with
    | none => exact ⟨cs, .skip hfound hcs⟩
    | some c => exact ⟨(r, c) :: cs, .draw hfound hcs⟩

theorem found_of_mem (h : Connected s positions rs cs) :
    ∀ e ∈ cs, e.1 ∈ rs ∧ Connector.of? s positions e.1 = .ok (some e.2) := by
  induction h with
  | nil => exact nofun
  | skip _ _ ih => exact fun e he => ⟨.tail _ (ih e he).1, (ih e he).2⟩
  | draw hc _ ih =>
    refine List.forall_mem_cons.2 ⟨⟨.head _, hc⟩, fun e he => ?_⟩
    exact ⟨.tail _ (ih e he).1, (ih e he).2⟩

variable {mode : RouteMode} {extent : Extent} {size : Json}

/-- If every connector is drawn, so is the whole list. -/
theorem exists_routes {P : Relationship Json × Connector → Route → Prop}
    (h : Connected s positions rs cs)
    (hdraw : ∀ e ∈ cs, ∃ route notes,
      Route.of? s positions mode extent size e.1 = .ok (some route, notes) ∧ P e route) :
    ∃ results, rs.mapM (Route.of? s positions mode extent size) = .ok results ∧
      List.Forall₂ P cs (results.filterMap (·.1)) := by
  induction h with
  | nil => exact ⟨[], rfl, .nil⟩
  | skip hc _ ih =>
    obtain ⟨results, hresults, hrel⟩ := ih hdraw
    exact ⟨(none, _) :: results, by rw [List.mapM_cons, Route.of?_eq_of_none hc, hresults]; rfl, hrel⟩
  | draw hc _ ih =>
    obtain ⟨⟨route, notes, hroute, hP⟩, hdraw⟩ := List.forall_mem_cons.1 hdraw
    obtain ⟨results, hresults, hrel⟩ := ih hdraw
    exact ⟨(some route, notes) :: results, by rw [List.mapM_cons, hroute, hresults]; rfl, .cons hP hrel⟩

/-- If no connector can be drawn and there is one, the whole list cannot be. -/
theorem mapM_eq_error {f : Fault} (h : Connected s positions rs cs) (hne : cs ≠ [])
    (hfail : ∀ e ∈ cs, Route.of? s positions mode extent size e.1 = .error f) :
    rs.mapM (Route.of? s positions mode extent size) = .error f := by
  induction h with
  | nil => exact absurd rfl hne
  | skip hc _ ih =>
    rw [List.mapM_cons, Route.of?_eq_of_none hc, ih hne hfail]
    rfl
  | draw hc _ ih =>
    rw [List.mapM_cons, (List.forall_mem_cons.1 hfail).1]
    rfl

end Connected

/-- The relationships by their connectors, if all names that are consulted are texts. -/
theorem exists_connected_of_texts (h : ∀ v ∈ s.consulted positions, v.isText) (hps : ArePlaces positions ps)
    (hm : Moderate s ps) : ∃ cs, Connected s positions s.relationships cs ∧
      ∀ e ∈ cs, e.2.start.AtRow ∧ e.2.finish.AtRow := by
  have hfind : ∀ r ∈ s.relationships, ∃ found, Connector.of? s positions r = .ok found ∧
      ∀ c, found = some c → c.start.AtRow ∧ c.finish.AtRow :=
    fun r hr => (Connector.lowers_atRow hps hm).succeeds (Schema.isText_of_consulted h hr)
  obtain ⟨cs, hcs⟩ := Connected.exists_of_found fun r hr =>
    let ⟨found, hfound, _⟩ := hfind r hr
    ⟨found, hfound⟩
  refine ⟨cs, hcs, fun e he => ?_⟩
  obtain ⟨hr, hc⟩ := hcs.found_of_mem e he
  obtain ⟨found, hfound, hends⟩ := hfind e.1 hr
  exact hends _ (Except.ok.inj (hfound.symm.trans hc))

theorem Schema.Named.isText_consulted (hs : s.Named) (positions : Json) :
    ∀ v ∈ s.consulted positions, v.isText := by
  intro v hv
  obtain ⟨r, hr, hv⟩ := List.mem_flatMap.1 hv
  exact Connector.isText_consulted hs hr v hv

/-- The relationships of a schema with moderate places, by their connectors. -/
theorem exists_connected (hs : s.Named) (hps : ArePlaces positions ps) (hm : Moderate s ps) :
    ∃ cs, Connected s positions s.relationships cs ∧
      ∀ e ∈ cs, e.2.start.AtRow ∧ e.2.finish.AtRow :=
  exists_connected_of_texts (hs.isText_consulted positions) hps hm

/-! ### What is drawn -/

namespace Route

variable {extent : Extent} {size : Json} {width height cell : ℤ}
  {cs : List (Relationship Json × Connector)} {mode : RouteMode}

/-- **Everything with a connector is drawn,** if each connector is. -/
theorem exists_all {P : Relationship Json × Connector → Route → Prop}
    (h : Connected s positions s.relationships cs)
    (hdraw : ∀ e ∈ cs, ∃ route notes, of? s positions mode extent size e.1 = .ok (some route, notes) ∧
      P e route) :
    ∃ routes notes, all s positions mode extent size = .ok (routes, notes) ∧
      List.Forall₂ P cs routes := by
  obtain ⟨results, hresults, hrel⟩ := h.exists_routes hdraw
  exact ⟨_, _, by rw [all, hresults]; rfl, hrel⟩

theorem all_eq_error {f : Fault} (h : Connected s positions s.relationships cs) (hne : cs ≠ [])
    (hfail : ∀ e ∈ cs, of? s positions mode extent size e.1 = .error f) :
    all s positions mode extent size = .error f := by
  rw [all, h.mapM_eq_error hne hfail]
  rfl

/-- The routes are of the same relationship, and agree at both ends. -/
structure Alike (a b : Route) : Prop where
  id : a.id = b.id
  arrow : a.arrowAngle = b.arrowAngle
  finish : a.finish = b.finish
  first : ∃ p q, a.points.head? = some p ∧ b.points.head? = some q ∧ q.same p = true
  last : ∃ p q, a.points.getLast? = some p ∧ b.points.getLast? = some q ∧ q.same p = true

theorem forall₂_of_common {α β γ : Type} {P : α → β → Prop} {Q : α → γ → Prop} {R : β → γ → Prop}
    (h : ∀ a b c, P a b → Q a c → R b c) {as : List α} {bs : List β} {cs : List γ}
    (hP : List.Forall₂ P as bs) (hQ : List.Forall₂ Q as cs) : List.Forall₂ R bs cs := by
  induction hP generalizing cs with
  | nil =>
    cases hQ
    exact .nil
  | cons hp _ ih =>
    cases hQ with
    | cons hq hQ => exact .cons (h _ _ _ hp hq) (ih hQ)

/-- A route that begins and ends at a connector is like any other route that draws the connector. -/
theorem Draws.alike {mode' : RouteMode} {a b : Route} (ha : Draws mode r c a) (hb : Draws mode' r c b)
    (hhead : a.points.head? = some c.start) (hlast : a.points.getLast? = some c.finish) : Alike a b := by
  obtain ⟨p, hp, hsame⟩ := hb.first
  obtain ⟨q, hq, hsame'⟩ := hb.last
  exact ⟨ha.id.trans hb.id.symm, ha.arrow.trans hb.arrow.symm, ha.finish.trans hb.finish.symm,
    ⟨_, p, hhead, hp, hsame⟩, _, q, hlast, hq, hsame'⟩

/-- **Both modes draw the same connectors.** The direct routes are those of the relationships that have a
connector, in order, from its start to its end by value. So are the routes on a grid of any size whose
cell is not too large for a floating-point number, and route by route the two modes agree at both ends. With
too large a cell, the routes on the grid fail as soon as there is one. -/
theorem modes_agree (hs : s.Named) (hps : ArePlaces positions ps) (hm : Moderate s ps) (hcell : 0 < cell) :
    ∃ cs direct notes, Connected s positions s.relationships cs ∧
      all s positions .orthogonal ⟨.int width, .int height⟩ (.int cell) = .ok (direct, notes) ∧
      List.Forall₂ (fun e route => Draws .orthogonal e.1 e.2 route) cs direct ∧
      (cell < Number.wholeLimit ∨ cs = [] → ∃ grid notes',
        all s positions .grid ⟨.int width, .int height⟩ (.int cell) = .ok (grid, notes') ∧
          List.Forall₂ (fun e route => Draws .grid e.1 e.2 route) cs grid ∧
          List.Forall₂ Alike direct grid) ∧
      (Number.wholeLimit ≤ cell → cs ≠ [] →
        all s positions .grid ⟨.int width, .int height⟩ (.int cell) = .error .overflow) := by
  obtain ⟨cs, hcs, hends⟩ := exists_connected hs hps hm
  have hfound := hcs.found_of_mem
  have hdraw : ∀ e ∈ cs, ∃ route notes,
      of? s positions .orthogonal ⟨.int width, .int height⟩ (.int cell) e.1 = .ok (some route, notes) ∧
        Draws .orthogonal e.1 e.2 route ∧ (∀ p ∈ route.points, p.Plain) ∧
        route.points.head? = some e.2.start ∧ route.points.getLast? = some e.2.finish :=
    fun e he => exists_direct (hfound e he).2 (hends e he).1 (hends e he).2
  obtain ⟨direct, notes, hdirect, hrel⟩ := exists_all hcs hdraw
  refine ⟨cs, direct, notes, hcs, hdirect, hrel.imp fun _ _ h => h.1, fun hfine => ?_, fun hlimit hne => ?_⟩
  · have hdraw' : ∀ e ∈ cs, ∃ route notes,
        of? s positions .grid ⟨.int width, .int height⟩ (.int cell) e.1 = .ok (some route, notes) ∧
          Draws .grid e.1 e.2 route ∧ ∀ p ∈ route.points, p.Plain :=
      fun e he => exists_grid hs hps hm (hfound e he).1 hcell
        (hfine.resolve_right (List.ne_nil_of_mem he)) (hfound e he).2 (hends e he).1 (hends e he).2
    obtain ⟨grid, notes', hgrid, hrel'⟩ := exists_all hcs hdraw'
    refine ⟨grid, notes', hgrid, hrel'.imp fun _ _ h => h.1, ?_⟩
    exact forall₂_of_common (fun _ _ _ ha hb => ha.1.alike hb.1 ha.2.2.1 ha.2.2.2) hrel hrel'
  · exact all_eq_error hcs hne fun e he =>
      of?_eq_overflow hs hps hm (hfound e he).1 hlimit (hfound e he).2 (hends e he).1

/-! The two cards with a gap of one cell between them. -/

theorem named_pair : pair.Named where
  columns := by simp [pair]
  relationships := by simp [pair, pairRelationship]

theorem moderate_pair : Moderate pair pairPlaces where
  columns := by simp [pair]
  places := by decide

theorem connected_pair :
    Connected pair pairPositions pair.relationships [(pairRelationship, pairConnector)] :=
  .draw connector_pair .nil

theorem atRow_pair : pairConnector.start.AtRow ∧ pairConnector.finish.AtRow := by
  obtain ⟨found, hfound, hends⟩ :=
    Connector.exists_of? named_pair arePlaces_pair moderate_pair (.head [])
  exact hends _ (Except.ok.inj (hfound.symm.trans connector_pair))

theorem modes_agree_pair : ∃ direct notes grid notes',
    all pair pairPositions .orthogonal ⟨.int 3000, .int 2000⟩ (.int 20) = .ok (direct, notes) ∧
      all pair pairPositions .grid ⟨.int 3000, .int 2000⟩ (.int 20) = .ok (grid, notes') ∧
      List.Forall₂ Alike direct grid := by
  obtain ⟨cs, direct, notes, -, hdirect, -, hgrid, -⟩ :=
    @modes_agree _ _ _ 3000 2000 20 named_pair arePlaces_pair moderate_pair (by decide)
  obtain ⟨grid, notes', hgrid, -, halike⟩ := hgrid (.inl (Number.lt_wholeLimit (n := 20) (by decide)))
  exact ⟨direct, notes, grid, notes', hdirect, hgrid, halike⟩

/-- With the least cell that is too large, the line is drawn directly and not on the grid. -/
theorem modes_differ_pair : (∃ direct notes,
      all pair pairPositions .orthogonal ⟨.int 3000, .int 2000⟩ (.int Number.wholeLimit) =
        .ok (direct, notes) ∧ direct.length = 1) ∧
    all pair pairPositions .grid ⟨.int 3000, .int 2000⟩ (.int Number.wholeLimit) = .error .overflow := by
  refine ⟨?_, all_eq_error connected_pair (List.cons_ne_nil _ _) ?_⟩
  · obtain ⟨route, notes, hroute, hdraws, -⟩ : ∃ route notes, of? pair pairPositions .orthogonal
        ⟨.int 3000, .int 2000⟩ (.int Number.wholeLimit) pairRelationship = .ok (some route, notes) ∧
          Draws .orthogonal pairRelationship pairConnector route ∧ _ :=
      exists_direct connector_pair atRow_pair.1 atRow_pair.2
    obtain ⟨direct, notes, hdirect, hrel⟩ := exists_all
      (P := fun e route => Draws .orthogonal e.1 e.2 route) connected_pair
      (List.forall_mem_cons.2 ⟨⟨route, notes, hroute, hdraws⟩, nofun⟩)
    exact ⟨direct, notes, hdirect, hrel.length_eq.symm⟩
  · exact List.forall_mem_cons.2 ⟨of?_eq_overflow named_pair arePlaces_pair moderate_pair (.head [])
      le_rfl connector_pair atRow_pair.1, nofun⟩

end Route

end ErCanvas
