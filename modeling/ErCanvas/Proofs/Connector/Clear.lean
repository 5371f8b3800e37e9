import ErCanvas.Proofs.Connector.Card
import ErCanvas.Proofs.Grid.Route

/-! # Lines on the grid keep clear of the cards

The line of a relationship on the grid goes around the cards of all tables that the relationship does not
name. It is the way that has been found, smoothed: no point of the way that is left out was a corner.

* `Terrain.accepts_of_route`: what is routed has been snapped to the grid.
* `axialSteps_anchored`: an anchored walk bends at grid steps only.
* `Route.grid_clear`: the lines of all relationships on the grid. -/

namespace ErCanvas

open Grid ErCanvas.Path

/-! ### Anchored walks -/

section

variable {t : Terrain} {start finish : Point} {a b s g : Place} {w : List Place}

/-- Both ends of a route can be snapped to the grid. -/
theorem Grid.Terrain.accepts_of_route {x : List Point × List Note}
    (h : t.route start finish = .ok x) : t.Accepts start ∧ t.Accepts finish := by
  obtain ⟨v, h, -⟩ := Outcome.bind_eq_ok.1 h
  obtain ⟨a, ha, h⟩ := Outcome.bind_eq_ok.1 h
  obtain ⟨b, hb, h⟩ := Outcome.bind_eq_ok.1 h
  obtain ⟨c, hc, h⟩ := Outcome.bind_eq_ok.1 h
  obtain ⟨d, hd, h⟩ := Outcome.bind_eq_ok.1 h
  exact ⟨⟨⟨a, ha⟩, b, hb⟩, ⟨c, hc⟩, d, hd⟩

/-- Where a search has reached the goal, the route is the anchored form of the walk that it goes back on. -/
theorem Grid.Terrain.route_of_reached {f : Frontier} {i : ℕ} {raw : List Point} {notes : List Note}
    (hc : 0 < t.cell) (hroute : t.route start finish = .ok (raw, notes))
    (hsolve : t.solveBetween start finish = .ok (.reached f i)) :
    ∃ s g w, t.Snaps start s ∧ t.Walk s g (s :: w) ∧
      pointsOf (f.trail i) = (s :: w).map Place.point ∧ raw = anchored start finish (s :: w) := by
  obtain ⟨hs, hf⟩ := accepts_of_route hroute
  obtain ⟨s, g, hs, -, ⟨f', i', w, hsolve', htrail, hw, -, -, hroute'⟩ | ⟨-, hsolve', -⟩⟩ :=
    route_cases hc hs hf
  · obtain ⟨rfl, rfl⟩ := Verdict.reached.inj (Except.ok.inj (hsolve.symm.trans hsolve'))
    obtain ⟨w, rfl⟩ := List.head?_eq_some_iff.1 hw.head
    rw [hroute] at hroute'
    exact ⟨s, g, w, hs, hw, htrail, (Prod.mk.inj (Except.ok.inj hroute')).1⟩
  · rw [hsolve] at hsolve'
    cases hsolve'

theorem Grid.Terrain.Step.axial (h : t.Step a b) : Axial a b := by
  rcases h with ⟨-, h⟩ | ⟨h, -⟩
  · exact .inr h.symm
  · exact .inl h.symm

/-- So there may in front of a step along an axis. -/
theorem Path.AxialSteps.cons (h : AxialSteps (a :: b :: w)) (hab : Axial a b) (c : Place) :
    AxialSteps (c :: a :: b :: w) := ⟨.inr hab, h⟩

/-- **An anchored walk** of two places or more is made of points at whole places, and of each two steps in
a row one lies along an axis. -/
theorem exists_axialSteps_anchored (hs : start.IsAt a) (hf : finish.IsAt b) (hw : t.Walk s g w)
    (hlength : 2 ≤ w.length) : ∃ places, List.Forall₂ Point.IsAt (anchored start finish w) places ∧
      AxialSteps places := by
  have haxial : w.IsChain Axial := hw.steps.imp fun p q h => h.1.axial
  have hwalk : List.Forall₂ Point.IsAt (w.map Place.point) w :=
    List.forall₂_map_left_iff.2 (List.forall₂_same.2 fun p _ => p.isAt_point)
  obtain ⟨post, hpost, hshort⟩ : ∃ post : List Place, List.Forall₂ Point.IsAt
      (if endsAt finish w && !(beginsAt start w && w.length == 1) then [] else [finish]) post ∧
      post.length ≤ 1 := by
    split
    · exact ⟨[], .nil, Nat.zero_le _⟩
    · exact ⟨[b], .cons hf .nil, le_rfl⟩
  have hsteps := axialSteps_append haxial hshort
  unfold anchored
  split
  · exact ⟨_, List.rel_append hwalk hpost, hsteps⟩
  · refine ⟨_, .cons hs (List.rel_append hwalk hpost), ?_⟩
    rcases w with - | ⟨c, - | ⟨d, w⟩⟩
    · simp at hlength
    · simp at hlength
    · exact hsteps.cons (List.isChain_cons_cons.1 haxial).1 a

end

/-! ### Routes -/

namespace Route

variable {s : Schema Json} {positions : Json} {ps : List (String × Place)} {r : Relationship Json}
  {c : Connector} {width height cell : ℤ}

/-- The line of a relationship that is drawn. -/
theorem exists_line {routes : List Route} {notes : List Note} {mode : RouteMode} {extent : Extent}
    {size : Json} (hall : all s positions mode extent size = .ok (routes, notes))
    (hr : r ∈ s.relationships) (hc : Connector.of? s positions r = .ok (some c)) :
    ∃ route ∈ routes, route.id = r.id ∧ ∃ path noted,
      line s positions mode extent size r c = .ok (route.points, path, noted) := by
  obtain ⟨results, hresults, h⟩ := Outcome.bind_eq_ok.1 hall
  cases h
  obtain ⟨result, hmem, hresult⟩ := Outcome.exists_of_forall₂ (Outcome.mapM_eq_ok.1 hresults).flip hr
  obtain ⟨c', hc', hresult⟩ := Outcome.bind_eq_ok.1 hresult
  obtain rfl := Except.ok.inj (hc.symm.trans hc')
  obtain ⟨⟨points, path, noted⟩, hline, hresult⟩ := Outcome.bind_eq_ok.1 hresult
  cases hresult
  exact ⟨_, List.mem_filterMap.2 ⟨_, hmem, rfl⟩, rfl, path, noted, hline⟩

/-- What the line of a relationship on the grid is made of: the cards that it goes around, and the way
before it has been smoothed. -/
theorem exists_raw {extent : Extent} {size : Json} {points : List Point} {path : String}
    {notes : List Note}
    (h : line s positions .grid extent size r c = .ok (points, path, notes)) :
    ∃ cards raw, obstacles s positions r = .ok cards ∧
      Grid.route c.start c.finish cards extent size = .ok (raw, notes) ∧
      Path.smooth raw = .ok points := by
  obtain ⟨⟨points', notes'⟩, h, hpath⟩ := Outcome.bind_eq_ok.1 h
  obtain ⟨path', -, hpath⟩ := Outcome.bind_eq_ok.1 hpath
  cases hpath
  obtain ⟨cards, hcards, h⟩ := Outcome.bind_eq_ok.1 h
  obtain ⟨⟨raw, notes'⟩, hraw, h⟩ := Outcome.bind_eq_ok.1 h
  obtain ⟨points', hpoints, h⟩ := Outcome.bind_eq_ok.1 h
  cases h
  exact ⟨cards, raw, hcards, hraw, hpoints⟩

/-- **Lines on the grid keep clear of all other cards.** Each relationship with a connector is drawn, and
its line is the way that is found for it, with the ends and some of the points between. Where the way is
the walk of a search, of two places or more, no point is left out but on the straight segment between
those kept around it, and no place of the walk behind the start is less than a cell, or a cell, away from
the card of a table that the relationship does not name. The height of a row is a floating-point number,
and is exact for as many rows as a table can have in a memory. -/
theorem grid_clear (hps : ArePlaces positions ps)
    (hnear : ∀ e ∈ ps, |e.2.1| ≤ 2 ^ 50 ∧ |e.2.2| ≤ 2 ^ 50) (hcell : 0 < cell) {routes : List Route}
    {notes : List Note}
    (hall : all s positions .grid ⟨.int width, .int height⟩ (.int cell) = .ok (routes, notes)) :
    ∀ r ∈ s.relationships, ∀ c, Connector.of? s positions r = .ok (some c) →
      ∃ route ∈ routes, route.id = r.id ∧ ∃ cards raw noted,
        obstacles s positions r = .ok cards ∧
        Grid.route c.start c.finish cards ⟨.int width, .int height⟩ (.int cell) = .ok (raw, noted) ∧
        route.points.Sublist raw ∧ route.points.head? = raw.head? ∧
        route.points.getLast? = raw.getLast? ∧
        ∀ f i, Grid.solveBetween c.start c.finish cards ⟨.int width, .int height⟩ (.int cell) =
            .ok (.reached f i) →
          ∃ a w, pointsOf (f.trail i) = (a :: w).map Place.point ∧
            snapped cell c.start.x = .ok (.int a.1) ∧ snapped cell c.start.y = .ok (.int a.2) ∧
            (w ≠ [] →
              ((∀ t ∈ s.tables, t.columns.length ≤ 2 ^ 48) → Straightened raw route.points) ∧
              ∀ q ∈ w, ∀ b, OtherCard s ps r b → ¬ b.Covers cell q) := by
  intro r hr c hc
  obtain ⟨route, hroute, hid, path, noted, hline⟩ := exists_line hall hr hc
  obtain ⟨cards, raw, hcards, hraw, hsmooth⟩ := exists_raw hline
  obtain ⟨hsub, hhead, hlast⟩ := smooth_sublist hsmooth
  refine ⟨route, hroute, hid, cards, raw, noted, hcards, hraw, hsub, hhead, hlast, ?_⟩
  intro f i hsolve
  obtain ⟨boxes, rfl, hboxes⟩ := obstacles_eq hps hcards
  let t : Terrain := ⟨cell, width, height, boxes⟩
  have hraw : t.route c.start c.finish = .ok (raw, noted) := hraw
  obtain ⟨a, g, w, ha, hw, htrail, hanchored⟩ := Terrain.route_of_reached (t := t) hcell hraw hsolve
  refine ⟨a, w, htrail, ha.1, ha.2, fun hne => ⟨fun hrows => ?_, fun q hq b hb => ?_⟩⟩
  · obtain ⟨⟨p, hp⟩, p', hp'⟩ := Connector.isAt_of hps (fun e he => (hnear e he).2) hrows hc
    have hlength : 2 ≤ (a :: w).length := Nat.succ_le_succ (List.length_pos_of_ne_nil hne)
    obtain ⟨places, hplaces, haxial⟩ := exists_axialSteps_anchored hp hp' hw hlength
    rw [← hanchored] at hplaces
    have htwo := two_le_length_anchored c.start c.finish (List.cons_ne_nil a w)
    rw [← hanchored] at htwo
    have hraw : raw ≠ [] := List.ne_nil_of_length_pos (Nat.zero_lt_of_lt htwo)
    exact smooth_straightened hplaces haxial hraw hsmooth
  · exact (hw.free q hq).2 b (hboxes b hb)

/-! Two cards with a gap of one cell between them, and a third card below. -/

def pairRelationship : Relationship Json := ⟨.str "A", .str "x", .str "B", .str "y"⟩

/-- Two tables with a relationship between them, and another one. -/
def pair : Schema Json :=
  ⟨[⟨"a", [⟨.str "x", .str "int", false, true, true, none⟩]⟩,
    ⟨"b", [⟨.str "y", .str "int", true, false, false, none⟩]⟩, ⟨"c", []⟩], [pairRelationship]⟩

def pairPlaces : List (String × Place) := [("a", 0, 0), ("b", 240, 0), ("c", 600, 300)]

def pairPositions : Json := .obj (pairPlaces.map fun e => (e.1, e.2.point.toJson))

def pairTerrain : Terrain := ⟨20, 3000, 2000, [Card.box (600, 300) 0]⟩

def pairConnector : Connector :=
  ⟨⟨.int 220, .num (.float (.num 48))⟩, ⟨.int 240, .num (.float (.num 48))⟩, true⟩

/-- The line between them. -/
def pairPoints : List Point :=
  anchored pairConnector.start pairConnector.finish [(220, 40), (240, 40)]

theorem arePlaces_pair : ArePlaces pairPositions pairPlaces :=
  ⟨by decide, _, rfl, .cons ⟨rfl, isPlace_toJson _⟩ (.cons ⟨rfl, isPlace_toJson _⟩
    (.cons ⟨rfl, isPlace_toJson _⟩ .nil))⟩

theorem connector_pair : Connector.of? pair pairPositions pairRelationship = .ok (some pairConnector) := by
  with_unfolding_all rfl

/-- The walk between the ends is the only one of two places. -/
theorem route_pair : ∃ f i, pairTerrain.solveBetween pairConnector.start pairConnector.finish =
      .ok (.reached f i) ∧
    pointsOf (f.trail i) = [Place.point (220, 40), Place.point (240, 40)] ∧
    pairTerrain.route pairConnector.start pairConnector.finish = .ok (pairPoints, []) := by
  have hstart : pairTerrain.Snaps pairConnector.start (220, 40) :=
    ⟨by decide +kernel, by decide +kernel⟩
  have hfinish : pairTerrain.Snaps pairConnector.finish (240, 40) :=
    ⟨by decide +kernel, by decide +kernel⟩
  have hwalk : pairTerrain.Walk (220, 40) (240, 40) [(220, 40), (240, 40)] :=
    ⟨rfl, rfl, by decide⟩
  obtain ⟨s, g, hs, hg, h⟩ := Terrain.route_cases (by decide : 0 < pairTerrain.cell)
    ⟨⟨_, hstart.1⟩, _, hstart.2⟩ ⟨⟨_, hfinish.1⟩, _, hfinish.2⟩
  obtain rfl := hs.unique hstart
  obtain rfl := hg.unique hfinish
  obtain ⟨f, i, w, hsolve, htrail, hw, -, hmin, hroute⟩ | ⟨hno, -⟩ := h
  · have hle := hmin _ hwalk
    have hends := hw.head
    have hends' := hw.last
    rcases w with - | ⟨p, - | ⟨q, - | ⟨r, w⟩⟩⟩
    · cases hends
    · exact absurd (hends.symm.trans hends') (by decide)
    · obtain rfl := Option.some.inj hends
      obtain rfl := Option.some.inj hends'
      exact ⟨f, i, hsolve, htrail, hroute⟩
    · simp at hle
  · exact absurd ⟨_, hwalk⟩ hno

/-- The relationship is drawn. -/
theorem all_pair : ∃ routes notes,
    all pair pairPositions .grid ⟨.int 3000, .int 2000⟩ (.int 20) = .ok (routes, notes) := by
  obtain ⟨-, -, -, -, hroute⟩ := route_pair
  have hcards : obstacles pair pairPositions pairRelationship = .ok pairTerrain.obstacles := rfl
  have hsmooth : Path.smooth pairPoints = .ok pairPoints := rfl
  obtain ⟨path, hpath⟩ : ∃ path, Path.svg pairPoints = .ok path := by
    have hsome : (Path.svg pairPoints).toOption.isSome = true := by decide +kernel
    cases h : Path.svg pairPoints with
    | ok path => exact ⟨path, rfl⟩
    | error f => rw [h] at hsome; cases hsome
  have hroute : Grid.route pairConnector.start pairConnector.finish pairTerrain.obstacles
      ⟨.int 3000, .int 2000⟩ (.int 20) = .ok (pairPoints, []) := hroute
  have hline : of? pair pairPositions .grid ⟨.int 3000, .int 2000⟩ (.int 20) pairRelationship =
      .ok (some ⟨pairRelationship.id, .grid, path, pairPoints, 0, pairConnector.finish⟩, []) := by
    simp only [of?, connector_pair, line, gridPoints, hcards, hroute, hsmooth, hpath, Outcome.ok_bind,
      Outcome.pure_eq]
    rfl
  have hresults : pair.relationships.mapM (of? pair pairPositions .grid ⟨.int 3000, .int 2000⟩ (.int 20)) =
      .ok [(some ⟨pairRelationship.id, .grid, path, pairPoints, 0, pairConnector.finish⟩, [])] :=
    Outcome.mapM_eq_ok.2 (.cons hline .nil)
  rw [all, hresults]
  exact ⟨_, _, rfl⟩

theorem grid_clear_pair : ∃ routes notes,
    all pair pairPositions .grid ⟨.int 3000, .int 2000⟩ (.int 20) = .ok (routes, notes) ∧
      ∃ route ∈ routes, Straightened pairPoints route.points ∧
        ¬ (Card.box (600, 300) 0).Covers 20 (240, 40) := by
  obtain ⟨routes, notes, hall⟩ := all_pair
  obtain ⟨f, i, hsolve, htrail, hroute⟩ := route_pair
  obtain ⟨route, hmem, -, cards, raw, noted, hcards, hraw, -, -, -, h⟩ :=
    grid_clear arePlaces_pair (by decide) (by decide) hall _ (.head _) _ connector_pair
  obtain rfl : pairTerrain.obstacles = cards := Except.ok.inj hcards
  obtain ⟨rfl, -⟩ := Prod.mk.inj (Except.ok.inj (hraw.symm.trans hroute))
  obtain ⟨a, w, htrail', -, -, h⟩ := h f i hsolve
  obtain ⟨-, hw⟩ := List.cons.inj (htrail'.symm.trans htrail)
  obtain ⟨q, w, rfl, hq, -⟩ := List.map_eq_cons_iff.1 hw
  obtain ⟨hstraight, hclear⟩ := h (List.cons_ne_nil q w)
  refine ⟨routes, notes, hall, route, hmem, hstraight (by decide), ?_⟩
  have hq : q = (240, 40) := by simpa [Place.point, Prod.ext_iff] using hq
  have hother : OtherCard pair pairPlaces pairRelationship (Card.box (600, 300) 0) :=
    ⟨⟨"c", []⟩, .tail _ (.tail _ (.head _)), by decide, by decide, (600, 300), by decide, rfl⟩
  exact hq ▸ hclear q (.head _) _ hother

end Route

end ErCanvas
