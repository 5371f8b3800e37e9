import ErCanvas.Proofs.Connector.Modes

/-! # When routing fails

Names of any kind can be kept in a schema, and are consulted only when its relationships are routed. With
moderate places, routing fails if a name that is consulted is no text, or if lines have to be drawn on too
coarse a grid, and in no other case.

* `Route.all_of_texts`, `all_of_nonText?`: what routing comes to in either case. -/

namespace ErCanvas

namespace Route

variable {s : Schema Json} {positions : Json} {ps : List (String × Place)} {r : Relationship Json}
  {c : Connector} {v : Json} {mode : RouteMode} {extent : Extent} {size : Json} {width height cell : ℤ}

/-! ### One relationship -/

theorem of?_of_nonText? (hps : ArePlaces positions ps) (hm : Moderate s ps)
    (h : nonText? (Connector.consulted s positions r) = some v) :
    of? s positions mode extent size r = .error v.notLowered := by
  rw [of?, (Connector.lowers_atRow hps hm).fails v h]
  rfl

theorem of?_of_coarse (hps : ArePlaces positions ps) (hm : Moderate s ps)
    (h : ∀ v ∈ Connector.consulted s positions r, v.isText) (hcoarse : Coarse mode cell)
    (hc : Connector.of? s positions r = .ok (some c)) (hstart : c.start.AtRow) :
    of? s positions mode ⟨.int width, .int height⟩ (.int cell) r = .error .overflow := by
  obtain ⟨rfl, hlimit⟩ := hcoarse
  obtain ⟨hfrom, hto⟩ := Connector.isText_tables h
  exact of?_eq_overflow_of_texts hps hm hfrom hto hlimit hc hstart

theorem of?_of_texts (hps : ArePlaces positions ps) (hm : Moderate s ps)
    (h : ∀ v ∈ Connector.consulted s positions r, v.isText) (hcell : 0 < cell) :
    (∃ result, of? s positions mode ⟨.int width, .int height⟩ (.int cell) r = .ok result) ∨
      Coarse mode cell ∧
        of? s positions mode ⟨.int width, .int height⟩ (.int cell) r = .error .overflow := by
  obtain ⟨found, hfound, hends⟩ := (Connector.lowers_atRow hps hm).succeeds h
  cases found with
  | none => exact .inl ⟨_, of?_eq_of_none hfound⟩
  | some c =>
    by_cases hcoarse : Coarse mode cell
    · exact .inr ⟨hcoarse, of?_of_coarse hps hm h hcoarse hfound (hends c rfl).1⟩
    · obtain ⟨route, notes, hroute, -⟩ := exists_drawn_of_texts hps hm h hcell hcoarse hfound (hends c rfl)
      exact .inl ⟨_, hroute⟩

/-! ### All relationships -/

/-- **Routing consults texts only:** there is one route for each relationship with a connector, in order,
unless there is one and the grid is too coarse. -/
theorem all_of_texts (hps : ArePlaces positions ps) (hm : Moderate s ps)
    (h : ∀ v ∈ s.consulted positions, v.isText) (mode : RouteMode) (width height : ℤ) (hcell : 0 < cell) :
    ∃ cs, Connected s positions s.relationships cs ∧
      (¬ Coarse mode cell ∨ cs = [] → ∃ routes notes,
        all s positions mode ⟨.int width, .int height⟩ (.int cell) = .ok (routes, notes) ∧
          List.Forall₂ (fun e route => Draws mode e.1 e.2 route) cs routes) ∧
      (Coarse mode cell → cs ≠ [] →
        all s positions mode ⟨.int width, .int height⟩ (.int cell) = .error .overflow) := by
  obtain ⟨cs, hcs, hends⟩ := exists_connected_of_texts h hps hm
  have hfound := hcs.found_of_mem
  have htexts := fun e he => Schema.isText_of_consulted h (hfound e he).1
  refine ⟨cs, hcs, fun hfine => ?_, fun hcoarse hne => ?_⟩
  · refine exists_all hcs fun e he => ?_
    obtain ⟨route, notes, hroute, hdraws, -⟩ := exists_drawn_of_texts hps hm (htexts e he) hcell
      (hfine.resolve_right (List.ne_nil_of_mem he)) (hfound e he).2 (hends e he)
    exact ⟨route, notes, hroute, hdraws⟩
  · exact all_eq_error hcs hne fun e he =>
      of?_of_coarse hps hm (htexts e he) hcoarse (hfound e he).2 (hends e he).1

/-- The first name that is no text ends the list, if drawing on a coarse grid has not ended it before. -/
theorem mapM_of_nonText? (hps : ArePlaces positions ps) (hm : Moderate s ps) (hcell : 0 < cell)
    {rs : List (Relationship Json)} (h : nonText? (rs.flatMap (Connector.consulted s positions)) = some v) :
    rs.mapM (of? s positions mode ⟨.int width, .int height⟩ (.int cell)) = .error v.notLowered ∨
      Coarse mode cell ∧
        rs.mapM (of? s positions mode ⟨.int width, .int height⟩ (.int cell)) = .error .overflow := by
  -- on the relationships: the first of them ends the list, or gives a result and the others decide
  induction rs with
  | nil => cases h
  | cons r rs ih =>
    rw [List.flatMap_cons, nonText?_append] at h
    rw [List.mapM_cons]
    cases hr : nonText? (Connector.consulted s positions r) with
    | some w =>
      rw [hr] at h
      cases h
      rw [of?_of_nonText? hps hm hr]
      exact .inl rfl
    | none =>
      rw [hr, Option.none_or] at h
      rcases of?_of_texts hps hm (nonText?_eq_none.1 hr) hcell with ⟨result, hresult⟩ | ⟨hcoarse, herror⟩
      · rw [hresult, Outcome.ok_bind]
        rcases ih h with hrest | ⟨hcoarse, hrest⟩
        · exact .inl (by rw [hrest]; rfl)
        · exact .inr ⟨hcoarse, by rw [hrest]; rfl⟩
      · exact .inr ⟨hcoarse, by rw [herror]; rfl⟩

/-- **Routing consults a name that is no text:** the first such name is the cause of a failure, if a coarse
grid has not been before. -/
theorem all_of_nonText? (hps : ArePlaces positions ps) (hm : Moderate s ps) (mode : RouteMode)
    (width height : ℤ) (hcell : 0 < cell) (h : nonText? (s.consulted positions) = some v) :
    all s positions mode ⟨.int width, .int height⟩ (.int cell) = .error v.notLowered ∨
      Coarse mode cell ∧
        all s positions mode ⟨.int width, .int height⟩ (.int cell) = .error .overflow := by
  rcases mapM_of_nonText? hps hm hcell h with hrest | ⟨hcoarse, hrest⟩
  · exact .inl (by rw [all, hrest]; rfl)
  · exact .inr ⟨hcoarse, by rw [all, hrest]; rfl⟩

end Route

end ErCanvas
