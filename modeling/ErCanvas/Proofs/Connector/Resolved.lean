import ErCanvas.Proofs.Connector.Modes
import ErCanvas.Proofs.Layout
import ErCanvas.Proofs.Schema.Size

/-! # What is drawn in the default layout

In the default layout every card has a position. So the relationships with a connector are those whose
names are found, and all of them are drawn, in their order and in either mode.

* `Schema.resolves`: the tables and the columns that a relationship names are found.
* `Connector.isSome_eq_resolves`: the relationships with a connector.
* `Route.exists_resolved`: what is drawn. -/

namespace ErCanvas

variable {s : Schema String} {r : Relationship String}

/-! ### Look-ups -/

/-- The first table of the one name has a column of the other name; case does not count. -/
def Schema.finds (s : Schema String) (table column : String) : Bool :=
  (s.tables.find? (sameName ·.name table)).any fun t => t.columns.any (sameName ·.name column)

/-- The tables and the columns that the relationship names are found. -/
def Schema.resolves (s : Schema String) (r : Relationship String) : Bool :=
  s.finds r.fromTable r.fromColumn && s.finds r.toTable r.toColumn

theorem Schema.table?_stored (s : Schema String) (name : String) : s.stored.table? (.str name) =
    .ok ((s.tables.find? (sameName ·.name name)).map (·.map Json.str)) := by
  have heq : s.stored.table? (.str name) =
      .ok ((s.tables.map (·.map Json.str)).find? (·.id == Text.lower name)) := rfl
  rw [heq, List.find?_map]
  rfl

theorem exists_columnIndexFrom_stored (wanted : String) (i : ℕ) (cs : List (Column String)) :
    ∃ row, columnIndexFrom wanted i (cs.map (·.map Json.str)) = .ok row ∧
      row.isSome = cs.any (Text.lower ·.name == wanted) := by
  induction cs generalizing i with
  | nil => exact ⟨none, rfl, rfl⟩
  | cons c cs ih =>
    rw [List.map_cons, columnIndexFrom, List.any_cons]
    show ∃ row, (if Text.lower c.name == wanted then _ else _) = _ ∧ _
    split
    · rename_i hc
      exact ⟨some i, rfl, by rw [hc]; rfl⟩
    · rename_i hc
      rw [Bool.not_eq_true] at hc
      rw [hc]
      exact ih (i + 1)

theorem Table.exists_columnIndex?_stored (t : Table String) (name : String) :
    ∃ row, (t.map Json.str).columnIndex? (.str name) = .ok row ∧
      row.isSome = t.columns.any (sameName ·.name name) :=
  exists_columnIndexFrom_stored (Text.lower name) 0 t.columns

/-- Every card of the default layout has a position. -/
theorem Connector.exists_position? {t : Table String} (ht : t ∈ s.tables) :
    ∃ v, position? (Layout.ofSchema s) t.id = .ok (some v) := by
  obtain ⟨⟨_, p⟩, hmem, rfl⟩ :=
    List.mem_map.1 (Layout.mem_ids_positions (List.mem_map_of_mem (f := Table.id) ht))
  obtain ⟨hnodup, entries, hentries, hplaces⟩ := Layout.arePlaces_ofSchema s
  obtain ⟨v, hv, hp⟩ := find?_of_mem hplaces hnodup hmem
  have heq : position? (.obj entries) t.id = .ok ((Json.find? t.id entries).filter Json.isTruthy) := rfl
  rw [hentries, heq, hv, Option.filter_some, if_pos hp.isTruthy]
  exact ⟨v, rfl⟩

section

variable {found : Option Connector}

/-- Between tables that are found, there is a connector exactly if both columns are. -/
theorem Connector.isSome_eq_of_tables {source target : Table String}
    (h : of? s.stored (Layout.ofSchema s) (r.map Json.str) = .ok found)
    (hsource : s.tables.find? (sameName ·.name r.fromTable) = some source)
    (htarget : s.tables.find? (sameName ·.name r.toTable) = some target) :
    found.isSome = (source.columns.any (sameName ·.name r.fromColumn) &&
      target.columns.any (sameName ·.name r.toColumn)) := by
  obtain ⟨v, hv⟩ := exists_position? (List.mem_of_find?_eq_some hsource)
  obtain ⟨v', hv'⟩ := exists_position? (List.mem_of_find?_eq_some htarget)
  obtain ⟨row, hrow, hsome⟩ := source.exists_columnIndex?_stored r.fromColumn
  obtain ⟨row', hrow', hsome'⟩ := target.exists_columnIndex?_stored r.toColumn
  have hfrom : s.stored.table? (r.map Json.str).fromTable = _ := s.table?_stored r.fromTable
  have hto : s.stored.table? (r.map Json.str).toTable = _ := s.table?_stored r.toTable
  have hv : position? (Layout.ofSchema s) (source.map Json.str).id = _ := hv
  have hv' : position? (Layout.ofSchema s) (target.map Json.str).id = _ := hv'
  have hrow : (source.map Json.str).columnIndex? (r.map Json.str).fromColumn = _ := hrow
  have hrow' : (target.map Json.str).columnIndex? (r.map Json.str).toColumn = _ := hrow'
  simp only [of?, hfrom, hto, hsource, htarget, Option.map_some, hv, hv', hrow, hrow', Outcome.ok_bind] at h
  -- both cards have positions, so that the rows alone decide
  rw [← hsome, ← hsome']
  cases row with
  | none =>
    cases h
    rfl
  | some row =>
    cases row' with
    | none =>
      cases h
      rfl
    | some row' =>
      obtain ⟨c, -, h⟩ := Outcome.bind_eq_ok.1 h
      cases h
      rfl

/-- **A relationship has a connector** exactly if what it names is found. -/
theorem Connector.isSome_eq_resolves
    (h : of? s.stored (Layout.ofSchema s) (r.map Json.str) = .ok found) :
    found.isSome = s.resolves r := by
  have hfrom : s.stored.table? (r.map Json.str).fromTable = _ := s.table?_stored r.fromTable
  have hto : s.stored.table? (r.map Json.str).toTable = _ := s.table?_stored r.toTable
  rw [Schema.resolves, Schema.finds, Schema.finds]
  cases hsource : s.tables.find? (sameName ·.name r.fromTable) with
  | none =>
    simp only [of?, hfrom, hto, hsource, Outcome.ok_bind] at h
    cases h
    rfl
  | some source =>
    cases htarget : s.tables.find? (sameName ·.name r.toTable) with
    | none =>
      simp only [of?, hfrom, hto, hsource, htarget, Outcome.ok_bind] at h
      cases h
      exact (Bool.and_false _).symm
    | some target => exact isSome_eq_of_tables h hsource htarget

end

/-! ### Drawing -/

theorem Schema.named_stored (s : Schema String) : s.stored.Named where
  columns := by simp [stored, map, Table.map, Column.map]
  relationships := by simp [stored, map, Relationship.map]

theorem moderate_stored {n : ℕ} (h : s.Fits n) (hn : n < 2 ^ 63) :
    Moderate s.stored (Layout.positions (s.tables.map Table.id)) where
  columns := by
    simp only [Schema.stored, Schema.map, Table.map, List.forall_mem_map, List.length_map]
    exact fun t ht => (h.columns t ht).trans_lt hn
  places := Layout.near_positions (by rw [List.length_map]; exact h.tables.trans_lt hn)

/-- The relationships with a connector are those of which a test says so. -/
theorem Connected.map_fst {α : Type} {s : Schema Json} {positions : Json} {f : α → Relationship Json}
    {p : α → Bool} {rs : List α} {cs : List (Relationship Json × Connector)}
    (h : Connected s positions (rs.map f) cs)
    (hp : ∀ r found, Connector.of? s positions (f r) = .ok found → found.isSome = p r) :
    cs.map Prod.fst = (rs.filter p).map f := by
  induction rs generalizing cs with
  | nil =>
    cases h
    rfl
  | cons r rs ih =>
    cases h with
    | skip hc h => rw [ih h, List.filter_cons, ← hp r _ hc, if_neg (by simp)]
    | draw hc h => rw [List.map_cons, ih h, List.filter_cons, ← hp r _ hc, if_pos (by simp), List.map_cons]

namespace Route

/-- All numbers of the route can be computed with. -/
structure Plain (route : Route) : Prop where
  points : ∀ p ∈ route.points, p.Plain
  arrow : (Number.int route.arrowAngle).Plain
  finish : route.finish.Plain

variable {mode : RouteMode}

theorem Draws.plain {r : Relationship Json} {c : Connector} {route : Route} (h : Draws mode r c route)
    (hfinish : c.finish.AtRow) (hpoints : ∀ p ∈ route.points, p.Plain) : route.Plain where
  points := hpoints
  arrow := by
    rw [h.arrow, Connector.arrowAngle]
    split
    · exact Number.lt_wholeLimit (by decide)
    · exact Number.lt_wholeLimit (n := 180) (by decide)
  finish := h.finish ▸ hfinish.plain

/-- A connector between rows is drawn in either mode on the default canvas. -/
theorem exists_drawn {s : Schema Json} {positions : Json} {ps : List (String × Place)}
    {r : Relationship Json} {c : Connector} (hs : s.Named) (hps : ArePlaces positions ps)
    (hm : Moderate s ps) (hr : r ∈ s.relationships) (hc : Connector.of? s positions r = .ok (some c))
    (hstart : c.start.AtRow) (hfinish : c.finish.AtRow) : ∃ route notes,
      of? s positions mode .standard standardCell r = .ok (some route, notes) ∧
        Draws mode r c route ∧ route.Plain := by
  have hfine : ¬ Coarse mode 20 := fun h => (Number.lt_wholeLimit (n := 20) (by decide)).not_ge h.2
  obtain ⟨route, notes, hroute, hdraws, hplain⟩ :=
    @exists_drawn_of_texts _ _ _ _ _ mode 3000 2000 20 hps hm (Connector.isText_consulted hs hr) (by decide)
      hfine hc ⟨hstart, hfinish⟩
  exact ⟨route, notes, hroute, hdraws, hdraws.plain hfinish hplain⟩

/-- **What is drawn in the default layout:** one route for each relationship whose names are found, in
order, from the start of its connector to the end. -/
theorem exists_resolved {n : ℕ} (h : s.Fits n) (hn : n < 2 ^ 63) : ∃ routes notes,
    all s.stored (Layout.ofSchema s) mode .standard standardCell = .ok (routes, notes) ∧
      List.Forall₂ (fun r route => ∃ c,
        Connector.of? s.stored (Layout.ofSchema s) (r.map Json.str) = .ok (some c) ∧
          Draws mode (r.map Json.str) c route) (s.relationships.filter s.resolves) routes ∧
      ∀ route ∈ routes, route.Plain := by
  have hnamed := s.named_stored
  have hps := Layout.arePlaces_ofSchema s
  have hm := moderate_stored h hn
  obtain ⟨cs, hcs, hends⟩ := exists_connected hnamed hps hm
  have hfound := hcs.found_of_mem
  obtain ⟨routes, notes, hroutes, hrel⟩ := exists_all
    (P := fun e route => Connector.of? s.stored (Layout.ofSchema s) e.1 = .ok (some e.2) ∧
      Draws mode e.1 e.2 route ∧ route.Plain) hcs fun e he => by
    obtain ⟨route, notes, hroute, hdraws⟩ := exists_drawn hnamed hps hm (hfound e he).1 (hfound e he).2
      (hends e he).1 (hends e he).2
    exact ⟨route, notes, hroute, (hfound e he).2, hdraws⟩
  refine ⟨routes, notes, hroutes, ?_, fun route hroute => ?_⟩
  · have hfst : cs.map Prod.fst = (s.relationships.filter s.resolves).map (·.map Json.str) :=
      hcs.map_fst fun r found => Connector.isSome_eq_resolves
    rw [← List.forall₂_map_left_iff (f := fun r : Relationship String => r.map Json.str)
      (R := fun r route => ∃ c, Connector.of? s.stored (Layout.ofSchema s) r = .ok (some c) ∧
        Draws mode r c route), ← hfst, List.forall₂_map_left_iff]
    exact hrel.imp fun e route h => ⟨e.2, h.1, h.2.1⟩
  · obtain ⟨e, -, h⟩ := Outcome.exists_of_forall₂ hrel hroute
    exact h.2.2

end Route

end ErCanvas
