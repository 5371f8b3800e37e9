import ErCanvas.Proofs.Connector.Card
import ErCanvas.Proofs.Json.Rearranged

/-! # Positions in any order

A drawing looks up the position of every card by its id, and looks up its coordinates. So it does not
depend on the order in which positions are given, nor on the order of their coordinates.

* `SamePlaces`: the same places at the same ids.
* `Route.all_congr`: what is drawn depends on the places only. -/

namespace ErCanvas

open Json (Rearranged)

/-- The values have a place at the same ids, each the same place. -/
def SamePlaces (v w : Json) : Prop :=
  ∃ es es', v = .obj es ∧ w = .obj es' ∧ ∀ id, Option.Rel
    (fun a b => ∃ p, IsPlace a p ∧ IsPlace b p) (Json.find? id es) (Json.find? id es')

/-! ### Rearranged positions -/

theorem isPlace_iff {v : Json} {p : Place} :
    IsPlace v p ↔ v.entry "x" = .ok (.int p.1) ∧ v.entry "y" = .ok (.int p.2) := by
  refine ⟨fun h => ⟨h.entry_x, h.entry_y⟩, fun ⟨hx, hy⟩ => ?_⟩
  obtain ⟨es, rfl, hfindx⟩ := Json.entry_eq_ok.1 hx
  obtain ⟨_, hes, hfindy⟩ := Json.entry_eq_ok.1 hy
  cases hes
  exact ⟨es, rfl, hfindx, hfindy⟩

theorem IsPlace.rearranged {v w : Json} {p : Place} (hv : IsPlace v p) (h : Rearranged v w) :
    IsPlace w p :=
  isPlace_iff.2 ⟨(Json.fixed_num _).entry h hv.entry_x, (Json.fixed_num _).entry h hv.entry_y⟩

/-- Rearranged positions have the same places. -/
theorem ArePlaces.samePlaces {v w : Json} {ps : List (String × Place)} (hv : ArePlaces v ps)
    (h : Rearranged v w) : SamePlaces v w := by
  obtain ⟨-, es, rfl, hps⟩ := hv
  obtain ⟨es', rfl, hfind⟩ := h.find?
  refine ⟨es, es', rfl, rfl, fun id => ?_⟩
  have hrel := hfind id
  generalize hfound : Json.find? id es = found at hrel ⊢
  generalize Json.find? id es' = found' at hrel ⊢
  cases hrel with
  | none => exact .none
  | some hr =>
    obtain ⟨p, -, hp⟩ := mem_of_find? hps hfound
    exact .some ⟨p, hp, hp.rearranged hr⟩

/-! ### Connectors and cards -/

section

variable {s : Schema Json} {positions positions' : Json} {r : Relationship Json}

theorem Connector.between_congr {v v' w w' : Json} {p q : Place} (hv : IsPlace v p) (hv' : IsPlace v' p)
    (hw : IsPlace w q) (hw' : IsPlace w' q) (row row' : ℕ) :
    between v w row row' = between v' w' row row' := by
  simp only [between, Card.rowCenterY, Card.centerX, Card.rightX, Card.leftX, hv.entry_x, hv.entry_y,
    hv'.entry_x, hv'.entry_y, hw.entry_x, hw.entry_y, hw'.entry_x, hw'.entry_y]

/-- A card has no position in either, or the same place in both. -/
theorem Connector.position?_cases (h : SamePlaces positions positions') (id : String) :
    position? positions id = .ok none ∧ position? positions' id = .ok none ∨
      ∃ v v' p, position? positions id = .ok (some v) ∧ position? positions' id = .ok (some v') ∧
        IsPlace v p ∧ IsPlace v' p := by
  obtain ⟨es, es', rfl, rfl, hfind⟩ := h
  have heq : ∀ es, position? (.obj es) id = .ok ((Json.find? id es).filter Json.isTruthy) := fun _ => rfl
  rw [heq, heq]
  have hrel := hfind id
  generalize Json.find? id es = found at hrel ⊢
  generalize Json.find? id es' = found' at hrel ⊢
  cases hrel with
  | none => exact .inl ⟨rfl, rfl⟩
  | some hp =>
    obtain ⟨p, hp, hp'⟩ := hp
    refine .inr ⟨_, _, p, ?_, ?_, hp, hp'⟩
    · rw [Option.filter_some, if_pos hp.isTruthy]
    · rw [Option.filter_some, if_pos hp'.isTruthy]

theorem Connector.of?_congr (h : SamePlaces positions positions') :
    of? s positions r = of? s positions' r := by
  unfold of?
  refine Outcome.bind_congr fun source => Outcome.bind_congr fun target => ?_
  cases source with
  | none => rfl
  | some source =>
    cases target with
    | none => rfl
    | some target =>
      rcases position?_cases h source.id with ⟨hv, hv'⟩ | ⟨v, v', p, hv, hv', hp, hp'⟩
      all_goals rcases position?_cases h target.id with ⟨hw, hw'⟩ | ⟨w, w', q, hw, hw', hq, hq'⟩
      all_goals simp only [hv, hv', hw, hw', Outcome.ok_bind]
      simp only [between_congr hp hp' hq hq']

/-- The rectangles of the cards with a position. -/
theorem Card.mapM_rect_congr {es es' : List (String × Json)}
    (h : ∀ id, Option.Rel (fun a b => ∃ p, IsPlace a p ∧ IsPlace b p) (Json.find? id es)
      (Json.find? id es')) (ts : List (Table Json)) :
    (ts.filterMap fun t => (Json.find? t.id es).map (t, ·)).mapM (fun e => rect e.1 e.2) =
      (ts.filterMap fun t => (Json.find? t.id es').map (t, ·)).mapM fun e => rect e.1 e.2 := by
  induction ts with
  | nil => rfl
  | cons t ts ih =>
    have hrel := h t.id
    simp only [List.filterMap_cons]
    generalize Json.find? t.id es = found at hrel ⊢
    generalize Json.find? t.id es' = found' at hrel ⊢
    cases hrel with
    | none => exact ih
    | some hp =>
      obtain ⟨p, hp, hp'⟩ := hp
      simp only [Option.map_some, List.mapM_cons, rect_box hp, rect_box hp', ih]

theorem Route.obstacles_congr (h : SamePlaces positions positions') :
    obstacles s positions r = obstacles s positions' r := by
  obtain ⟨es, es', rfl, rfl, hfind⟩ := h
  unfold obstacles
  refine Outcome.bind_congr fun source => Outcome.bind_congr fun target => ?_
  exact Card.mapM_rect_congr hfind _

/-- **What is drawn** depends on the places of the cards only. -/
theorem Route.all_congr (h : SamePlaces positions positions') (mode : RouteMode) (extent : Extent)
    (cell : Json) : all s positions mode extent cell = all s positions' mode extent cell := by
  have hone : ∀ r, of? s positions mode extent cell r = of? s positions' mode extent cell r := by
    intro r
    unfold of?
    rw [Connector.of?_congr h]
    refine Outcome.bind_congr fun found => ?_
    cases found with
    | none => rfl
    | some c =>
      cases mode with
      | orthogonal => rfl
      | grid => simp only [line, gridPoints, obstacles_congr h]
  rw [all, all, funext hone]

end

end ErCanvas
