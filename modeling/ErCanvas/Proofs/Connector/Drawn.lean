import ErCanvas.Proofs.Connector.Consulted
import ErCanvas.Proofs.Connector.Joined
import ErCanvas.Proofs.Grid.Confined
import ErCanvas.Proofs.Path.Drawable

/-! # Every connector is drawn

In a schema whose names are texts, with cards at moderate places and tables of no more columns than a
list can have, every relationship has a connector or has none, and nothing fails on the way. Every
connector is drawn, directly and on the grid, from its start to its end by value. On the grid the cell must
not be too large for a floating-point number; if it is, nothing with a connector is drawn.

* `Schema.Named`, `Moderate`: the schemas and the places.
* `Connector.lowers_atRow`, `exists_of?`: connectors are found, and their ends stand at rows.
* `Terrain.exists_route`: the route between two such ends.
* `Route.exists_direct`, `exists_grid`, `of?_eq_overflow`: one relationship.
* `Route.Coarse`, `exists_drawn_of_texts`: either mode, for names that are texts as far as they matter. -/

namespace ErCanvas

open Grid (Box Terrain)

/-- The names of columns, and all names in relationships, are texts. -/
structure Schema.Named (s : Schema Json) : Prop where
  columns : ∀ t ∈ s.tables, ∀ c ∈ t.columns, ∃ name, c.name = .str name
  relationships : ∀ r ∈ s.relationships, (∃ name, r.fromTable = .str name) ∧
    (∃ name, r.fromColumn = .str name) ∧ (∃ name, r.toTable = .str name) ∧
    ∃ name, r.toColumn = .str name

/-- All names in the relationship are texts. -/
def Relationship.Named (r : Relationship Json) : Prop :=
  (∃ name, r.fromTable = .str name) ∧ (∃ name, r.fromColumn = .str name) ∧
    (∃ name, r.toTable = .str name) ∧ ∃ name, r.toColumn = .str name

theorem Schema.Named.isText_tables {s : Schema Json} (hs : s.Named) {r : Relationship Json}
    (hr : r ∈ s.relationships) : r.fromTable.isText ∧ r.toTable.isText := by
  obtain ⟨hfrom, -, hto, -⟩ := hs.relationships r hr
  exact ⟨Json.isText_iff.2 hfrom, Json.isText_iff.2 hto⟩

/-- No table has more columns than a list can have, and the places of the cards are moderate. -/
structure Moderate (s : Schema Json) (ps : List (String × Place)) : Prop where
  columns : ∀ t ∈ s.tables, t.columns.length < 2 ^ 63
  places : ∀ e ∈ ps, |e.2.1| ≤ 2 ^ 50 ∧ |e.2.2| ≤ 2 ^ 50

variable {s : Schema Json} {positions : Json} {ps : List (String × Place)} {r : Relationship Json}
  {c : Connector}

/-! ### Connectors -/

namespace Connector

variable {v v' : Json} {p p' : Place} {row row' : ℕ}

theorem abs_edge_le (hx : |p.1| ≤ 2 ^ 50) (n : ℕ) (right : Bool) : |(Card.box p n).edge right| ≤ 2 ^ 51 := by
  have hx := abs_le.1 hx
  rw [abs_le]
  cases right <;> simp only [Box.edge, Card.box, Card.width, if_true, if_false, Bool.false_eq_true] <;> omega

theorem atRow_edge {y : ℤ} (hx : |p.1| ≤ 2 ^ 50) (hsettled : (Binary64.num y).Settled) (hy : |y| ≤ 2 ^ 71)
    (n : ℕ) (right : Bool) :
    Point.AtRow ⟨.int ((Card.box p n).edge right), .num (.float (.num y))⟩ :=
  ⟨_, _, rfl, abs_edge_le hx n right, hsettled, show |(y : ℚ)| ≤ 2 ^ 71 by exact_mod_cast hy⟩

/-- There is a connector between any two rows of cards at moderate places. -/
theorem exists_between (hp : IsPlace v p) (hp' : IsPlace v' p') (hnear : |p.1| ≤ 2 ^ 50 ∧ |p.2| ≤ 2 ^ 50)
    (hnear' : |p'.1| ≤ 2 ^ 50 ∧ |p'.2| ≤ 2 ^ 50) (hrow : row < 2 ^ 63) (hrow' : row' < 2 ^ 63) :
    ∃ c, between v v' row row' = .ok c ∧ c.start.AtRow ∧ c.finish.AtRow := by
  obtain ⟨y, hy, hsettled, hbound, -⟩ := Card.exists_rowCenterY hp hnear.2 hrow
  obtain ⟨y', hy', hsettled', hbound', -⟩ := Card.exists_rowCenterY hp' hnear'.2 hrow'
  exact ⟨_, between_eq_joining hp hp' hnear.1 hnear'.1 hy hy' 0 0,
    atRow_edge hnear.1 hsettled hbound 0 _, atRow_edge hnear'.1 hsettled' hbound' 0 _⟩

/-- Looking for a connector consults names, and the ends of one that is found stand at rows. -/
theorem lowers_atRow (hps : ArePlaces positions ps) (hm : Moderate s ps) :
    Lowers (consulted s positions r) (of? s positions r) fun found =>
      ∀ c, found = some c → c.start.AtRow ∧ c.finish.AtRow := by
  refine lowers_of? hps nofun fun source hsource target htarget v v' row row' hv hv' hrow hrow' => ?_
  obtain ⟨p, hmem, hp⟩ := isPlace_of_position? hps hv
  obtain ⟨p', hmem', hp'⟩ := isPlace_of_position? hps hv'
  obtain ⟨c, hc, hends⟩ := exists_between hp hp' (hm.places _ hmem) (hm.places _ hmem')
    (hrow.trans (hm.columns _ hsource)) (hrow'.trans (hm.columns _ htarget))
  exact ⟨c, hc, fun c' h => Option.some.inj h ▸ hends⟩

theorem isText_consulted_of_named (hs : s.Named) (hr : r.Named) :
    ∀ v ∈ consulted s positions r, v.isText := by
  obtain ⟨hfrom, hfromColumn, hto, htoColumn⟩ := hr
  refine List.forall_mem_cons.2 ⟨Json.isText_iff.2 hfrom, List.forall_mem_cons.2 ⟨Json.isText_iff.2 hto, ?_⟩⟩
  split
  · rename_i source target hsource htarget
    refine List.forall_mem_append.2 ⟨?_, ?_⟩
    · exact source.isText_searched hfromColumn (hs.columns source (mem_of_placed? hsource))
    · exact target.isText_searched htoColumn (hs.columns target (mem_of_placed? htarget))
  · exact nofun

theorem isText_consulted (hs : s.Named) (hr : r ∈ s.relationships) :
    ∀ v ∈ consulted s positions r, v.isText :=
  isText_consulted_of_named hs (hs.relationships r hr)

/-- **Looking for a connector does not fail**, and the ends of one that is found stand at rows. -/
theorem exists_of? (hs : s.Named) (hps : ArePlaces positions ps) (hm : Moderate s ps)
    (hr : r ∈ s.relationships) :
    ∃ found, of? s positions r = .ok found ∧ ∀ c, found = some c → c.start.AtRow ∧ c.finish.AtRow :=
  (lowers_atRow hps hm).succeeds (isText_consulted hs hr)

end Connector

/-! ### Routes on the grid -/

section

variable {t : Terrain} {start finish p : Point} {w : List Place}

theorem Grid.mem_anchored (hp : p ∈ anchored start finish w) :
    p = start ∨ p = finish ∨ ∃ a ∈ w, p = a.point := by
  unfold anchored at hp
  rw [List.mem_append, List.mem_append] at hp
  rcases hp with (hp | hp) | hp
  · split at hp
    · cases hp
    · exact .inl (List.mem_singleton.1 hp)
  · obtain ⟨a, ha, rfl⟩ := List.mem_map.1 hp
    exact .inr (.inr ⟨a, ha, rfl⟩)
  · split at hp
    · cases hp
    · exact .inr (.inl (List.mem_singleton.1 hp))

/-- A point at a row can be snapped, to a place that is not far, and to the origin if the cell is large. -/
theorem Point.AtRow.exists_snaps (h : p.AtRow) (hc : 0 < t.cell) (hlt : t.cell < Number.wholeLimit) :
    ∃ q, t.Snaps p q ∧ (|q.1| ≤ 2 ^ 74 + 2 * t.cell ∧ |q.2| ≤ 2 ^ 74 + 2 * t.cell) ∧
      (2 ^ 77 ≤ t.cell → q = (0, 0)) := by
  obtain ⟨a, y, rfl, ha, -, hy⟩ := h
  have hlimit : (2 : ℚ) ^ 71 ≤ 2 ^ (1020 : ℤ) := Binary64.two_pow_le_two_zpow (by norm_num)
  have hx : (Number.int a).Within (2 ^ 71) := by
    have ha : |(a : ℚ)| ≤ 2 ^ 51 := by exact_mod_cast ha
    exact ha.trans (by norm_num)
  have hy : (Number.float y).Within (2 ^ 71) := hy
  obtain ⟨k, hk, hbound, hzero⟩ := Grid.exists_snapped hx hlimit hc hlt
  obtain ⟨l, hl, hbound', hzero'⟩ := Grid.exists_snapped hy hlimit hc hlt
  refine ⟨(k * t.cell, l * t.cell), ⟨hk, hl⟩, ⟨?_, ?_⟩, fun hlarge => ?_⟩
  · norm_num at hbound ⊢
    exact_mod_cast hbound
  · norm_num at hbound' ⊢
    exact_mod_cast hbound'
  · have hlarge : (64 : ℚ) * 2 ^ 71 ≤ t.cell := by
      norm_num at hlarge ⊢
      exact_mod_cast hlarge
    rw [hzero hlarge, hzero' hlarge]
    simp

theorem Place.plain_point {a : Place} (hx : |a.1| ≤ 2 ^ 80) (hy : |a.2| ≤ 2 ^ 80) : a.point.Plain :=
  ⟨_, _, rfl, Number.lt_wholeLimit hx, Number.lt_wholeLimit hy⟩

/-- A shortest walk between the places that two points at rows are snapped to stays near to them and to
the obstacles. -/
theorem Grid.Terrain.Walk.plain {a g : Place} (hc : 0 < t.cell) (hlt : t.cell < Number.wholeLimit)
    (hboxes : ∀ b ∈ t.boxes, b.x + b.width ≤ 2 ^ 70 ∧ b.y + b.height ≤ 2 ^ 70) (hs : start.AtRow)
    (hf : finish.AtRow) (hstart : t.Snaps start a) (hfinish : t.Snaps finish g) (hw : t.Walk a g w)
    (hmin : ∀ v, t.Walk a g v → w.length ≤ v.length) : ∀ p ∈ w, p.point.Plain := by
  obtain ⟨a', ha, ⟨hax, hay⟩, hazero⟩ := hs.exists_snaps hc hlt
  obtain ⟨g', hg, ⟨hgx, hgy⟩, hgzero⟩ := hf.exists_snaps hc hlt
  obtain rfl := hstart.unique ha
  obtain rfl := hfinish.unique hg
  intro p hp
  rcases le_or_gt (2 ^ 77) t.cell with hlarge | hsmall
  · -- on a coarse grid both points are snapped to the origin, and the walk is over before it begins
    obtain rfl := hazero hlarge
    obtain rfl := hgzero hlarge
    obtain ⟨v, rfl⟩ := List.head?_eq_some_iff.1 hw.head
    have hlength := hmin _ (.single _)
    rw [List.length_cons, List.length_singleton] at hlength
    obtain rfl := List.eq_nil_of_length_eq_zero (Nat.le_zero.1 (Nat.le_of_succ_le_succ hlength))
    rw [List.mem_singleton.1 hp]
    exact Place.plain_point (by norm_num) (by norm_num)
  · have hreaches : t.Reaches (2 ^ 79) := by
      intro b hb
      obtain ⟨hbx, hby⟩ := hboxes b hb
      norm_num at hbx hby hsmall ⊢
      omega
    rw [abs_le] at hax hay hgx hgy
    norm_num at hax hay hgx hgy hsmall
    obtain rfl | ⟨⟨h1, h2⟩, h3, h4⟩ := hw.confined (m := 2 ^ 79) hc (by norm_num) (by norm_num; omega)
      (by norm_num; omega) hreaches hmin p hp
    · exact Place.plain_point (abs_le.2 (by norm_num; omega)) (abs_le.2 (by norm_num; omega))
    · norm_num at h2 h4
      exact Place.plain_point (abs_le.2 (by norm_num; omega)) (abs_le.2 (by norm_num; omega))

/-- **There is a route between any two points at rows**, from the one to the other by value, if the cell is
not too large and no obstacle reaches too far. -/
theorem Grid.Terrain.exists_route (hc : 0 < t.cell) (hlt : t.cell < Number.wholeLimit)
    (hboxes : ∀ b ∈ t.boxes, b.x + b.width ≤ 2 ^ 70 ∧ b.y + b.height ≤ 2 ^ 70) (hs : start.AtRow)
    (hf : finish.AtRow) : ∃ points notes, t.route start finish = .ok (points, notes) ∧
      (∀ p ∈ points, p.Plain) ∧ (∃ p, points.head? = some p ∧ p.same start = true) ∧
      ∃ p, points.getLast? = some p ∧ p.same finish = true := by
  obtain ⟨a, ha, -⟩ := hs.exists_snaps hc hlt
  obtain ⟨g, hg, -⟩ := hf.exists_snaps hc hlt
  have hstart : t.Accepts start := ⟨⟨_, ha.1⟩, _, ha.2⟩
  have hfinish : t.Accepts finish := ⟨⟨_, hg.1⟩, _, hg.2⟩
  obtain ⟨a, g, ha, hg, ⟨-, -, w, -, -, hw, -, hmin, hroute⟩ | ⟨-, -, hroute⟩⟩ :=
    route_cases hc hstart hfinish
  · refine ⟨_, _, hroute, ?_, head_anchored hstart.same hw.ne_nil, getLast_anchored hfinish.same hw.ne_nil⟩
    intro p hp
    rcases mem_anchored hp with rfl | rfl | ⟨q, hq, rfl⟩
    · exact hs.plain
    · exact hf.plain
    · exact hw.plain hc hlt hboxes hs hf ha hg hmin q hq
  · refine ⟨_, _, hroute, ?_, ⟨start, rfl, hstart.same⟩, finish, rfl, hfinish.same⟩
    simp only [List.forall_mem_cons]
    exact ⟨hs.plain, hf.plain, nofun⟩

end

/-! ### Drawing -/

theorem Point.AtRow.same_self {p : Point} (h : p.AtRow) : p.same p = true := by
  obtain ⟨a, y, rfl, -, -, hy⟩ := h
  cases y with
  | nan => exact hy.elim
  | infinity s => exact hy.elim
  | negZero => simp [Point.same, Json.same, Json.number?, Number.same, Number.exact, Binary64.same]
  | num q => simp [Point.same, Json.same, Json.number?, Number.same, Number.exact, Binary64.same]

namespace Route

variable {mode : RouteMode} {extent : Extent} {size : Json} {width height cell : ℤ}

/-- The route shows the line of a relationship in a mode, from the start of the connector to its end by
value. -/
structure Draws (mode : RouteMode) (r : Relationship Json) (c : Connector) (route : Route) : Prop where
  id : route.id = r.id
  mode : route.mode = mode
  arrow : route.arrowAngle = c.arrowAngle
  finish : route.finish = c.finish
  first : ∃ p, route.points.head? = some p ∧ p.same c.start = true
  last : ∃ p, route.points.getLast? = some p ∧ p.same c.finish = true

theorem of?_eq_of_line (hc : Connector.of? s positions r = .ok (some c)) :
    of? s positions mode extent size r =
      line s positions mode extent size r c >>= fun x =>
        .ok (some ⟨r.id, mode, x.2.1, x.1, c.arrowAngle, c.finish⟩, x.2.2) := by
  rw [of?, hc]
  rfl

theorem of?_eq_of_none (hc : Connector.of? s positions r = .ok none) :
    of? s positions mode extent size r = .ok (none, [.undrawable r.id]) := by
  rw [of?, hc]
  rfl

/-- **A connector is drawn directly.** -/
theorem exists_direct (hc : Connector.of? s positions r = .ok (some c)) (hs : c.start.AtRow)
    (hf : c.finish.AtRow) : ∃ route notes,
      of? s positions .orthogonal extent size r = .ok (some route, notes) ∧
        Draws .orthogonal r c route ∧ (∀ p ∈ route.points, p.Plain) ∧
        route.points.head? = some c.start ∧ route.points.getLast? = some c.finish := by
  obtain ⟨points, hpoints, hplain, hhead, hlast⟩ := Orthogonal.exists_points hs hf
  obtain ⟨path, hpath⟩ := Orthogonal.exists_path hs hf c.exitRight
  have hline : line s positions .orthogonal extent size r c = .ok (points, path, []) := by
    rw [line, hpoints, Outcome.ok_bind, hpath]
    rfl
  rw [of?_eq_of_line hc, hline]
  exact ⟨_, _, rfl, ⟨rfl, rfl, rfl, rfl, ⟨_, hhead, hs.same_self⟩, _, hlast, hf.same_self⟩, hplain,
    hhead, hlast⟩

/-- The cards that a line goes around can be found, and do not reach too far. -/
theorem exists_obstacles (hps : ArePlaces positions ps) (hm : Moderate s ps) (hfrom : r.fromTable.isText)
    (hto : r.toTable.isText) : ∃ boxes : List Box, obstacles s positions r = .ok (boxes.map Box.rect) ∧
      ∀ b ∈ boxes, b.x + b.width ≤ 2 ^ 70 ∧ b.y + b.height ≤ 2 ^ 70 := by
  obtain ⟨a, ha⟩ := Json.isText_iff.1 hfrom
  obtain ⟨a', ha'⟩ := Json.isText_iff.1 hto
  obtain ⟨cards, hcards⟩ : ∃ cards, obstacles s positions r = .ok cards := by
    obtain ⟨-, entries, rfl, hplaces⟩ := hps
    unfold obstacles
    rw [ha, ha']
    refine Outcome.exists_mapM ?_
    rintro ⟨t, v⟩ hmem
    obtain ⟨t', -, hfind⟩ := List.mem_filterMap.1 hmem
    obtain ⟨w, hfind, heq⟩ := Option.map_eq_some_iff.1 hfind
    cases heq
    obtain ⟨p, -, hp⟩ := mem_of_find? hplaces hfind
    exact ⟨_, Card.rect_box hp t⟩
  obtain ⟨boxes, rfl, -⟩ := obstacles_eq hps hcards
  refine ⟨boxes, hcards, fun b hb => ?_⟩
  obtain ⟨t, ht, p, hp, heq⟩ := exists_box_of_obstacles hps hcards (List.mem_map_of_mem hb)
  obtain rfl := Grid.Box.rect_injective heq
  have hcolumns := hm.columns t ht
  obtain ⟨hx, hy⟩ := hm.places _ hp
  rw [abs_le] at hx hy
  simp only [Card.box, Card.width, Card.headerHeight, Card.rowHeight]
  norm_num at hx hy hcolumns ⊢
  omega

/-- **A connector between named tables is drawn on the grid,** if the cell is not too large. -/
theorem exists_grid_of_texts (hps : ArePlaces positions ps) (hm : Moderate s ps)
    (hfrom : r.fromTable.isText) (hto : r.toTable.isText) (hcell : 0 < cell)
    (hlt : cell < Number.wholeLimit) (hc : Connector.of? s positions r = .ok (some c))
    (hstart : c.start.AtRow) (hfinish : c.finish.AtRow) :
    ∃ route notes, of? s positions .grid ⟨.int width, .int height⟩ (.int cell) r = .ok (some route, notes) ∧
      Draws .grid r c route ∧ ∀ p ∈ route.points, p.Plain := by
  obtain ⟨boxes, hboxes, hbounds⟩ := exists_obstacles hps hm hfrom hto
  obtain ⟨raw, notes, hraw, hplain, ⟨p, hp, hpsame⟩, q, hq, hqsame⟩ :=
    Terrain.exists_route (t := ⟨cell, width, height, boxes⟩) hcell hlt hbounds hstart hfinish
  have hraw : Grid.route c.start c.finish (boxes.map Box.rect) ⟨.int width, .int height⟩ (.int cell) =
      .ok (raw, notes) := hraw
  obtain ⟨points, hpoints⟩ := (Path.comparable_of_plain hplain).exists_smooth
  obtain ⟨hsub, hhead, hlast⟩ := Path.smooth_sublist hpoints
  have hplain' : ∀ p ∈ points, p.Plain := fun p hp => hplain p (hsub.subset hp)
  obtain ⟨path, hpath⟩ := Path.exists_svg hplain'
  have hline : line s positions .grid ⟨.int width, .int height⟩ (.int cell) r c =
      .ok (points, path, notes) := by
    simp only [line, gridPoints, hboxes, hraw, hpoints, hpath, Outcome.ok_bind, Outcome.pure_eq]
  rw [of?_eq_of_line hc, hline]
  exact ⟨_, _, rfl, ⟨rfl, rfl, rfl, rfl, ⟨p, hhead.trans hp, hpsame⟩, q, hlast.trans hq, hqsame⟩, hplain'⟩

/-- **A connector is drawn on the grid,** if the cell is not too large. -/
theorem exists_grid (hs : s.Named) (hps : ArePlaces positions ps) (hm : Moderate s ps)
    (hr : r ∈ s.relationships) (hcell : 0 < cell) (hlt : cell < Number.wholeLimit)
    (hc : Connector.of? s positions r = .ok (some c)) (hstart : c.start.AtRow) (hfinish : c.finish.AtRow) :
    ∃ route notes, of? s positions .grid ⟨.int width, .int height⟩ (.int cell) r = .ok (some route, notes) ∧
      Draws .grid r c route ∧ ∀ p ∈ route.points, p.Plain :=
  exists_grid_of_texts hps hm (hs.isText_tables hr).1 (hs.isText_tables hr).2 hcell hlt hc hstart hfinish

/-- **On too coarse a grid nothing is drawn:** the height of a row cannot be divided by the cell. -/
theorem of?_eq_overflow_of_texts (hps : ArePlaces positions ps) (hm : Moderate s ps)
    (hfrom : r.fromTable.isText) (hto : r.toTable.isText) (hlimit : Number.wholeLimit ≤ cell)
    (hc : Connector.of? s positions r = .ok (some c)) (hstart : c.start.AtRow) :
    of? s positions .grid ⟨.int width, .int height⟩ (.int cell) r = .error .overflow := by
  obtain ⟨boxes, hboxes, -⟩ := exists_obstacles hps hm hfrom hto
  obtain ⟨a, y, hstart, ha, -⟩ := hstart
  have hpos : 0 < cell := (zero_lt_one.trans Number.one_lt_wholeLimit).trans_le hlimit
  have hx : |(a : ℚ)| ≤ 2 ^ 51 := by exact_mod_cast ha
  obtain ⟨n, hn⟩ := Grid.exists_snapped_int hx (Binary64.two_pow_le_two_zpow (by norm_num)) hpos
  have hn : Grid.snapped cell c.start.x = .ok n := by rw [hstart]; exact hn
  have hy : Grid.snapped cell c.start.y = .error .overflow := by
    rw [hstart]
    exact Grid.snapped_eq_overflow (hlimit.trans (le_abs_self cell)) y
  have hsolve : Grid.solveBetween c.start c.finish (boxes.map Box.rect) ⟨.int width, .int height⟩
      (.int cell) = .error .overflow := by
    show (Grid.snapped cell c.start.x >>= fun _ => Grid.snapped cell c.start.y >>= _) = _
    rw [hn, Outcome.ok_bind, hy]
    rfl
  have hline : line s positions .grid ⟨.int width, .int height⟩ (.int cell) r c = .error .overflow := by
    rw [line, gridPoints, hboxes, Outcome.ok_bind, Grid.route, hsolve]
    rfl
  rw [of?_eq_of_line hc, hline]
  rfl

theorem of?_eq_overflow (hs : s.Named) (hps : ArePlaces positions ps) (hm : Moderate s ps)
    (hr : r ∈ s.relationships) (hlimit : Number.wholeLimit ≤ cell)
    (hc : Connector.of? s positions r = .ok (some c)) (hstart : c.start.AtRow) :
    of? s positions .grid ⟨.int width, .int height⟩ (.int cell) r = .error .overflow :=
  of?_eq_overflow_of_texts hps hm (hs.isText_tables hr).1 (hs.isText_tables hr).2 hlimit hc hstart

/-! ### Either mode -/

/-- Lines are drawn on a grid with a cell that is too large for a floating-point number. -/
def Coarse (mode : RouteMode) (cell : ℤ) : Prop := mode = .grid ∧ Number.wholeLimit ≤ cell

/-- **A connector is drawn in either mode,** if all names that are consulted are texts and the grid is not
too coarse. -/
theorem exists_drawn_of_texts (hps : ArePlaces positions ps) (hm : Moderate s ps)
    (h : ∀ v ∈ Connector.consulted s positions r, v.isText) (hcell : 0 < cell) (hfine : ¬ Coarse mode cell)
    (hc : Connector.of? s positions r = .ok (some c)) (hends : c.start.AtRow ∧ c.finish.AtRow) :
    ∃ route notes,
      of? s positions mode ⟨.int width, .int height⟩ (.int cell) r = .ok (some route, notes) ∧
        Draws mode r c route ∧ ∀ p ∈ route.points, p.Plain := by
  cases mode with
  | orthogonal =>
    obtain ⟨route, notes, hroute, hdraws, hplain, -⟩ := exists_direct hc hends.1 hends.2
    exact ⟨route, notes, hroute, hdraws, hplain⟩
  | grid =>
    have hlt : cell < Number.wholeLimit := not_le.1 fun hle => hfine ⟨rfl, hle⟩
    obtain ⟨hfrom, hto⟩ := Connector.isText_tables h
    exact exists_grid_of_texts hps hm hfrom hto hcell hlt hc hends.1 hends.2

end Route

end ErCanvas
