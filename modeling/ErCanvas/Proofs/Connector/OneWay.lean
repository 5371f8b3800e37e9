import ErCanvas.Proofs.Connector.Modes
import ErCanvas.Proofs.Connector.Reversed
import ErCanvas.Proofs.Path.Corners

/-! # Which direct lines turn back

A line leaves its source on the side on which the centre of the target is. Where the cards stand side by side,
its end lies on that side too. Where they overlap horizontally, it lies on the other side, while the corners
still stand on the side on which the line leaves: the line goes past its middle, comes back to it, and does
so again behind the vertical leg. The vertical leg never turns back.

* `Connector.directed_edges`: on which side the end of a connector lies.
* `Route.path_of_direct`: the path of a route.
* `Route.OneWayIfApart`, `lines_one_way_iff`: the lines of a schema, and which of them turn back. -/

namespace ErCanvas

open Grid (Box)
open Orthogonal (stroke directed OneWay)

variable {s : Schema Json} {positions : Json} {ps : List (String × Place)} {r : Relationship Json}
  {c : Connector} {extent : Extent} {size : Json}

theorem Point.atRow_inj {a b u v : ℤ}
    (h : (⟨.int a, .num (.float (.num u))⟩ : Point) = ⟨.int b, .num (.float (.num v))⟩) : a = b ∧ u = v := by
  simpa using h

/-- The end of a connector lies on the side on which it leaves, as far as its boxes are apart. -/
theorem Connector.directed_edges (b b' : Box) (hwidth : b.width = b'.width) :
    directed (b.x ≤ b'.x) (b'.edge (!decide (b.x ≤ b'.x)) - b.edge (b.x ≤ b'.x)) =
      |b'.x - b.x| - b.width := by
  by_cases hx : b.x ≤ b'.x
  · rw [decide_eq_true hx, abs_of_nonneg (sub_nonneg.2 hx)]
    simp only [directed, Box.edge, Bool.not_true, if_true, if_false, Bool.false_eq_true]
    omega
  · rw [decide_eq_false hx, abs_of_neg (sub_neg.2 (not_le.1 hx))]
    simp only [directed, Box.edge, Bool.not_false, if_true, if_false, Bool.false_eq_true]
    omega

namespace Route

theorem path_of_direct {route : Route} {notes : List Note} (hc : Connector.of? s positions r = .ok (some c))
    (h : of? s positions .orthogonal extent size r = .ok (some route, notes)) :
    Orthogonal.path c.start.x c.start.y c.finish.x c.finish.y c.exitRight Orthogonal.cornerRadius =
      .ok route.path := by
  rw [of?_eq_of_line hc] at h
  obtain ⟨⟨points, path, notes'⟩, hline, h⟩ := Outcome.bind_eq_ok.1 h
  cases h
  obtain ⟨points', -, hline⟩ := Outcome.bind_eq_ok.1 hline
  obtain ⟨path', hpath, hline⟩ := Outcome.bind_eq_ok.1 hline
  cases hline
  exact hpath

/-- The route draws a connector between cards at `p` and `p'`, from `(a, u)` to `(b, v)`; at different heights
it has corners. -/
structure Shows (s : Schema Json) (ps : List (String × Place)) (r : Relationship Json) (c : Connector)
    (route : Route) (p p' : Place) (a u b v : ℤ) : Prop extends Draws .orthogonal r c route where
  source : ∃ t, s.table? r.fromTable = .ok (some t) ∧ (t.id, p) ∈ ps
  target : ∃ t, s.table? r.toTable = .ok (some t) ∧ (t.id, p') ∈ ps
  start_eq : c.start = ⟨.int a, .num (.float (.num u))⟩
  finish_eq : c.finish = ⟨.int b, .num (.float (.num v))⟩
  path_eq : 1 ≤ |v - u| → route.path = (stroke a u b v c.exitRight).path

/-- The route draws a connector. If its ends are at different heights, its vertical leg does not turn back, and
its horizontal legs do not exactly if the two cards do not overlap from left to right: if their places are at
least the width of a card apart. -/
def OneWayIfApart (s : Schema Json) (ps : List (String × Place)) (e : Relationship Json × Connector)
    (route : Route) : Prop :=
  ∃ p p' a u b v, Shows s ps e.1 e.2 route p p' a u b v ∧
    (1 ≤ |v - u| → OneWay (stroke a u b v e.2.exitRight).down ∧
      (OneWay (stroke a u b v e.2.exitRight).across ↔ Card.width ≤ |p'.1 - p.1|))

/-- **A connector is drawn** by a line that turns back only if its cards overlap. -/
theorem exists_shown (hps : ArePlaces positions ps) (hm : Moderate s ps)
    (hc : Connector.of? s positions r = .ok (some c)) :
    ∃ route notes, of? s positions .orthogonal extent size r = .ok (some route, notes) ∧
      OneWayIfApart s ps (r, c) route := by
  obtain ⟨source, w, row, p, u, target, w', row', p', v, h, h', rfl⟩ := Connector.exists_stands hps hm hc
  have hx := (hm.places _ h.mem).1
  have hx' := (hm.places _ h'.mem).1
  obtain ⟨route, notes, hroute, hdraws, -⟩ : ∃ route notes,
      of? s positions .orthogonal extent size r = .ok (some route, notes) ∧ Draws .orthogonal r _ route ∧ _ :=
    exists_direct hc (Connector.atRow_edge hx h.settled h.bound _ _)
      (Connector.atRow_edge hx' h'.settled h'.bound _ _)
  have hne : 1 ≤ |v - u| → u ≠ v := fun hone heq => by
    rw [heq, sub_self, abs_zero] at hone
    omega
  refine ⟨route, notes, hroute, p, p', _, u, _, v, ⟨hdraws, ⟨source, h.table_eq, h.mem⟩,
    ⟨target, h'.table_eq, h'.mem⟩, rfl, rfl, fun hone => ?_⟩, fun hone => ⟨?_, ?_⟩⟩
  · have hpath := Orthogonal.path_eq (Connector.abs_edge_le hx source.columns.length (p.1 ≤ p'.1))
      (Connector.abs_edge_le hx' target.columns.length (!decide (p.1 ≤ p'.1))) h.bound h'.bound (hne hone)
      (p.1 ≤ p'.1)
    exact Except.ok.inj ((path_of_direct hc hroute).symm.trans hpath)
  · exact Orthogonal.oneWay_down h.bound h'.bound h.settled h'.settled _
  · rw [Orthogonal.oneWay_across_iff (hne hone)]
    have hedges := Connector.directed_edges (Card.box p source.columns.length)
      (Card.box p' target.columns.length) rfl
    exact (hedges ▸ sub_nonneg : 0 ≤ directed _ _ ↔ Card.width ≤ |p'.1 - p.1|)

/-- **Which lines turn back.** Every relationship that has a connector is drawn, in order, by a line that goes one
way along its vertical leg, and one way along its horizontal legs exactly if its cards do not overlap from
left to right. -/
theorem lines_one_way_iff (hs : s.Named) (hps : ArePlaces positions ps) (hm : Moderate s ps) :
    ∃ cs routes notes, Connected s positions s.relationships cs ∧
      all s positions .orthogonal extent size = .ok (routes, notes) ∧
      List.Forall₂ (OneWayIfApart s ps) cs routes := by
  obtain ⟨cs, hcs, -⟩ := exists_connected hs hps hm
  obtain ⟨routes, notes, hroutes, hlines⟩ := exists_all (P := OneWayIfApart s ps) hcs fun e he =>
    exists_shown hps hm (hcs.found_of_mem e he).2
  exact ⟨cs, routes, notes, hcs, hroutes, hlines⟩

end Route

/-! The same two cards side by side. -/

def spreadPlaces : List (String × Place) := [("posts", (100, 100)), ("users", (600, 350))]

def spreadPositions : Json := .obj (spreadPlaces.map fun e => (e.1, e.2.point.toJson))

theorem arePlaces_spread : ArePlaces spreadPositions spreadPlaces :=
  ⟨by decide, _, rfl, .cons ⟨rfl, isPlace_toJson _⟩ (.cons ⟨rfl, isPlace_toJson _⟩ .nil)⟩

theorem moderate_spread : Moderate stacked spreadPlaces where
  columns := by decide
  places := by decide

theorem connector_spread : Connector.of? stacked spreadPositions stackedRelationship =
    .ok (some ⟨⟨.int 320, .num (.float (.num (172 : ℤ)))⟩, ⟨.int 600, .num (.float (.num (398 : ℤ)))⟩, true⟩) := by
  with_unfolding_all rfl

theorem lines_one_way_spread : ∃ route notes,
    Route.all stacked spreadPositions .orthogonal ⟨.int 3000, .int 2000⟩ (.int 20) = .ok ([route], notes) ∧
      route.path = (stroke 320 172 600 398 true).path ∧ OneWay (stroke 320 172 600 398 true).down ∧
      OneWay (stroke 320 172 600 398 true).across := by
  obtain ⟨cs, routes, notes, hcs, hroutes, hlines⟩ :=
    @Route.lines_one_way_iff _ _ _ ⟨.int 3000, .int 2000⟩ (.int 20) named_stacked arePlaces_spread moderate_spread
  cases hcs with
  | skip hc _ => cases connector_spread.symm.trans hc
  | draw hc hcs =>
    cases connector_spread.symm.trans hc
    cases hcs
    cases hlines with
    | cons hline hnil =>
      cases hnil
      obtain ⟨p, p', a, u, b, v, hshows, hway⟩ := hline
      obtain ⟨rfl, rfl⟩ := Point.atRow_inj hshows.start_eq
      obtain ⟨rfl, rfl⟩ := Point.atRow_inj hshows.finish_eq
      obtain ⟨t, ht, hp⟩ := hshows.source
      obtain ⟨t', ht', hp'⟩ := hshows.target
      cases ht
      cases ht'
      obtain rfl := arePlaces_spread.place_unique (.head _) hp
      obtain rfl := arePlaces_spread.place_unique (.tail _ (.head _)) hp'
      obtain ⟨hdown, hacross⟩ := hway (by decide)
      exact ⟨_, notes, hroutes, hshows.path_eq (by decide), hdown, hacross.2 (by decide)⟩

/-! Where one card is below the other, the line goes left of its middle, and comes back to it. -/

theorem line_turned_back_stacked : ∃ route notes,
    Route.all stacked stackedPositions .orthogonal ⟨.int 3000, .int 2000⟩ (.int 20) = .ok ([route], notes) ∧
      route.path = "M 320 172 H 215 Q 225 172 225 182 V 388 Q 225 398 235 398 H 130" ∧
      route.path = (stroke 320 172 130 398 true).path ∧
      (stroke 320 172 130 398 true).across = [320, 215, 225, 235, 130] ∧
      ¬ OneWay (stroke 320 172 130 398 true).across := by
  refine ⟨_, _, by with_unfolding_all rfl, by with_unfolding_all rfl, by with_unfolding_all rfl,
    by with_unfolding_all rfl, by decide +kernel⟩

end ErCanvas
