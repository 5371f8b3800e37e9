import ErCanvas.Proofs.Grid.Shortest
import ErCanvas.Proofs.Outcome

/-! # Routes on whole terrain

A route leads from one point to another around the obstacles. The points need not lie on the grid; the
search goes from the place nearest to the one to the place nearest to the other, and the walk that it
finds is anchored at the points themselves.

* `snapped_eq_ok`: what a coordinate is snapped to is a multiple of the cell.
* `anchor_walk`: how the points are joined to a walk.
* `route_cases`: a route is a shortest walk, anchored, or the straight line if there is no walk. -/

namespace ErCanvas

/-! ### Accepted coordinates -/

namespace Grid

/-- The grid line that a coordinate is snapped to, for cells of a whole size. -/
def snapped (cell : ℤ) (v : Json) : Outcome Number := do snap (← v.number) (.int cell)

/-- A coordinate is snapped to a multiple of the cell. -/
theorem snapped_eq_ok {cell : ℤ} {v : Json} {n : Number} (h : snapped cell v = .ok n) :
    ∃ k, n = .int (k * cell) := by
  obtain ⟨x, -, h⟩ := Outcome.bind_eq_ok.1 h
  obtain ⟨y, -, h⟩ := Outcome.bind_eq_ok.1 h
  obtain ⟨z, -, h⟩ := Outcome.bind_eq_ok.1 h
  obtain ⟨k, -, h⟩ := Outcome.bind_eq_ok.1 h
  exact ⟨k, (Except.ok.inj h).symm⟩

theorem snapped_nan (cell : ℤ) (n : Number) : snapped cell (.num (.float .nan)) ≠ .ok n := by
  intro h
  obtain ⟨x, hx, h⟩ := Outcome.bind_eq_ok.1 h
  cases hx
  obtain ⟨q, hq, h⟩ := Outcome.bind_eq_ok.1 h
  obtain ⟨z, hz, h⟩ := Outcome.bind_eq_ok.1 h
  obtain ⟨k, hk, -⟩ := Outcome.bind_eq_ok.1 h
  obtain ⟨x, hx, hq⟩ := Outcome.bind_eq_ok.1 hq
  cases hx
  obtain ⟨y, -, hq⟩ := Outcome.bind_eq_ok.1 hq
  -- a quotient of what is no number is no number, and has no whole part
  have hnan : q = .float .nan := by
    split at hq
    · cases hq
    · rw [← Except.ok.inj hq]
      cases y <;> rfl
  subst hnan
  cases hz
  cases hk

/-- A coordinate that can be snapped is the same as itself: it is a number. -/
theorem same_of_snapped {cell : ℤ} {v : Json} {n : Number} (h : snapped cell v = .ok n) :
    v.same v = true := by
  cases v with
  | num x =>
    cases x with
    | int a => simp [Json.same, Json.number?]
    | float a =>
      cases a with
      | nan => exact absurd h (snapped_nan cell n)
      | infinity s => simp [Json.same, Json.number?, Number.same, Number.exact, Binary64.same]
      | negZero => rfl
      | num q => simp [Json.same, Json.number?, Number.same, Number.exact, Binary64.same]
  | bool b => cases b <;> rfl
  | null => cases h
  | str s => cases h
  | arr items => cases h
  | obj entries => cases h

namespace Terrain

variable (t : Terrain)

/-- Both coordinates of the point can be snapped. -/
def Accepts (p : Point) : Prop :=
  (∃ n, snapped t.cell p.x = .ok n) ∧ ∃ n, snapped t.cell p.y = .ok n

/-- The point is snapped to the place. -/
def Snaps (p : Point) (q : Place) : Prop :=
  snapped t.cell p.x = .ok (.int q.1) ∧ snapped t.cell p.y = .ok (.int q.2)

/-- The search between the places that two points are snapped to. -/
def solveBetween (start finish : Point) : Outcome Verdict :=
  Grid.solveBetween start finish t.obstacles t.extent (.int t.cell)

/-- The route between two points. -/
def route (start finish : Point) : Outcome (List Point × List Note) :=
  Grid.route start finish t.obstacles t.extent (.int t.cell)

variable {t} {s g : Place} {start finish p : Point} {w : List Place}

theorem Accepts.exists_snaps (h : t.Accepts p) :
    ∃ q, t.Snaps p q ∧ t.cell ∣ q.1 ∧ t.cell ∣ q.2 := by
  obtain ⟨⟨m, hm⟩, ⟨n, hn⟩⟩ := h
  obtain ⟨a, rfl⟩ := snapped_eq_ok hm
  obtain ⟨b, rfl⟩ := snapped_eq_ok hn
  exact ⟨(a * t.cell, b * t.cell), ⟨hm, hn⟩, Int.dvd_mul_left _ _, Int.dvd_mul_left _ _⟩

theorem Snaps.unique {q q' : Place} (h : t.Snaps p q) (h' : t.Snaps p q') : q = q' := by
  obtain ⟨h1, h2⟩ := h
  rw [h'.1, Except.ok.injEq, Number.int.injEq] at h1
  rw [h'.2, Except.ok.injEq, Number.int.injEq] at h2
  exact Prod.ext h1.symm h2.symm

theorem Accepts.same (h : t.Accepts p) : p.same p = true := by
  obtain ⟨⟨m, hm⟩, ⟨n, hn⟩⟩ := h
  unfold Point.same
  rw [same_of_snapped hm, same_of_snapped hn]
  rfl

theorem solveBetween_eq (hs : t.Snaps start s) (hg : t.Snaps finish g) :
    t.solveBetween start finish = (t.problem g).solve (.int s.1) (.int s.2) := by
  show (snapped t.cell start.x >>= fun a => snapped t.cell start.y >>= fun b =>
    snapped t.cell finish.x >>= fun c => snapped t.cell finish.y >>= fun d =>
      Problem.solve ⟨c, d, .int t.cell, t.obstacles, t.extent⟩ a b) = _
  rw [hs.1, hs.2, hg.1, hg.2]
  rfl

theorem route_reached {f : Frontier} {i : ℕ}
    (h : t.solveBetween start finish = .ok (.reached f i)) : t.route start finish =
      anchor (pointsOf (f.trail i)) start finish >>= fun points => .ok (points, []) := by
  unfold solveBetween at h
  unfold route Grid.route
  rw [h]; rfl

theorem route_noWay (h : t.solveBetween start finish = .ok .noWay) :
    t.route start finish = .ok ([start, finish], [.noRoute start.shown finish.shown]) := by
  unfold solveBetween at h
  unfold route Grid.route
  rw [h]; rfl

end Terrain

/-! ### Anchoring -/

/-- The walk begins at the point by value. -/
def beginsAt (p : Point) (w : List Place) : Bool := w.head?.any (·.point.same p)

/-- The walk ends at the point by value. -/
def endsAt (p : Point) (w : List Place) : Bool := w.getLast?.any (·.point.same p)

/-- The walk between two points: `start` stands in front if the walk does not begin there, and `finish`
behind if the walk does not end there or would be a single point. -/
def anchored (start finish : Point) (w : List Place) : List Point :=
  (if beginsAt start w then [] else [start]) ++ w.map Place.point ++
    (if endsAt finish w && !(beginsAt start w && w.length == 1) then [] else [finish])

theorem getLast?_cons_concat {α : Type} (a b : α) (l : List α) :
    (a :: (l ++ [b])).getLast? = some b := by
  rw [← List.cons_append, List.getLast?_concat]

/-- **A walk is anchored** at the points that it leads between. -/
theorem anchor_walk (start finish : Point) {w : List Place} (hw : w ≠ []) :
    anchor (w.map Place.point) start finish = .ok (anchored start finish w) := by
  obtain ⟨a, v, rfl⟩ := List.exists_cons_of_ne_nil hw
  rcases List.eq_nil_or_concat v with rfl | ⟨u, b, rfl⟩
  · by_cases h1 : a.point.same start = true <;> by_cases h2 : a.point.same finish = true <;>
      simp [anchor, anchored, beginsAt, endsAt, h1, h2]
  · by_cases h1 : a.point.same start = true <;> by_cases h2 : b.point.same finish = true <;>
      simp [anchor, anchored, beginsAt, endsAt, getLast?_cons_concat, h1, h2]

theorem two_le_length_anchored (start finish : Point) {w : List Place} (hw : w ≠ []) :
    2 ≤ (anchored start finish w).length := by
  obtain ⟨a, v, rfl⟩ := List.exists_cons_of_ne_nil hw
  unfold anchored
  cases v with
  | nil => by_cases h : a.point.same start = true <;> simp [beginsAt, h]
  | cons b v => simp only [List.length_append, List.length_map, List.length_cons]; omega

theorem head_anchored {start finish : Point} (hs : start.same start = true) {w : List Place}
    (hw : w ≠ []) : ∃ p, (anchored start finish w).head? = some p ∧ p.same start = true := by
  obtain ⟨a, v, rfl⟩ := List.exists_cons_of_ne_nil hw
  by_cases h : a.point.same start = true
  · exact ⟨a.point, by simp [anchored, beginsAt, h], h⟩
  · exact ⟨start, by simp [anchored, beginsAt, h], hs⟩

theorem getLast_anchored {start finish : Point} (hf : finish.same finish = true) {w : List Place}
    (hw : w ≠ []) : ∃ p, (anchored start finish w).getLast? = some p ∧ p.same finish = true := by
  obtain ⟨u, b, rfl⟩ := (List.eq_nil_or_concat w).resolve_left hw
  by_cases h : endsAt finish (u.concat b) && !(beginsAt start (u.concat b) &&
      (u.concat b).length == 1)
  · refine ⟨b.point, by rw [anchored, if_pos h]; simp, ?_⟩
    simpa [endsAt] using (Bool.and_eq_true_iff.1 h).1
  · exact ⟨finish, by rw [anchored, if_neg h]; simp, hf⟩

/-! ### Routes -/

namespace Terrain

variable {t : Terrain} {start finish : Point}

/-- **A route** is a shortest walk between the places that the points are snapped to, anchored at the
points; where there is no walk, it is the straight line. -/
theorem route_cases (hc : 0 < t.cell) (hs : t.Accepts start) (hf : t.Accepts finish) :
    ∃ s g, t.Snaps start s ∧ t.Snaps finish g ∧
      ((∃ f i w, t.solveBetween start finish = .ok (.reached f i) ∧
          pointsOf (f.trail i) = w.map Place.point ∧ t.Walk s g w ∧ w.Nodup ∧
          (∀ w', t.Walk s g w' → w.length ≤ w'.length) ∧
          t.route start finish = .ok (anchored start finish w, [])) ∨
        (¬ ∃ w, t.Walk s g w) ∧ t.solveBetween start finish = .ok .noWay ∧
          t.route start finish = .ok ([start, finish], [.noRoute start.shown finish.shown])) := by
  obtain ⟨s, hs, hs1, hs2⟩ := hs.exists_snaps
  obtain ⟨g, hg, hg1, hg2⟩ := hf.exists_snaps
  have hal : t.Aligned s g := ⟨Int.dvd_sub hg1 hs1, Int.dvd_sub hg2 hs2⟩
  refine ⟨s, g, hs, hg, ?_⟩
  obtain ⟨v, hv, hend⟩ := Search.solve_spec t s g
  rw [← solveBetween_eq hs hg] at hv
  cases v with
  | reached f i =>
    obtain ⟨w, hp, hw, hn, hmin⟩ := Search.reached_spec hc hal hend
    refine Or.inl ⟨f, i, w, hv, hp, hw, hn, hmin, ?_⟩
    rw [route_reached hv, hp, anchor_walk start finish hw.ne_nil]
    rfl
  | noWay =>
    exact Or.inr ⟨Search.noWay_spec hc hend, hv, route_noWay hv⟩
  | unfinished => exact hend.elim

/-! A canvas of ten by ten cells with a box between the points `(23, 71)` and `(197, 64)`. -/

def walled : Terrain := ⟨20, 200, 200, [⟨80, 40, 40, 60⟩]⟩

theorem accepts_walled_start : walled.Accepts ⟨.int 23, .int 71⟩ :=
  ⟨⟨.int 20, by decide +kernel⟩, ⟨.int 80, by decide +kernel⟩⟩

theorem accepts_walled_finish : walled.Accepts ⟨.int 197, .int 64⟩ :=
  ⟨⟨.int 200, by decide +kernel⟩, ⟨.int 60, by decide +kernel⟩⟩

/-- A walk above the box. -/
theorem walk_walled : walled.Walk (20, 80) (200, 60) [(20, 80), (40, 80), (40, 60), (40, 40), (40, 20),
    (40, 0), (60, 0), (80, 0), (100, 0), (120, 0), (140, 0), (160, 0), (160, 20), (160, 40), (160, 60),
    (180, 60), (200, 60)] := ⟨rfl, rfl, by decide⟩

theorem snaps_walled {s g : Place} (hs : walled.Snaps ⟨.int 23, .int 71⟩ s)
    (hg : walled.Snaps ⟨.int 197, .int 64⟩ g) : s = (20, 80) ∧ g = (200, 60) :=
  ⟨hs.unique ⟨by decide +kernel, by decide +kernel⟩,
    hg.unique ⟨by decide +kernel, by decide +kernel⟩⟩

/-- **Shortest routes.** Whenever a route is found, it is the anchored form of the walk that the search
goes back on, and no walk between the snapped points is shorter. -/
theorem route_shortest (hc : 0 < t.cell) (hs : t.Accepts start) (hf : t.Accepts finish) :
    ∃ s g, t.Snaps start s ∧ t.Snaps finish g ∧
      ∀ points, t.route start finish = .ok (points, []) →
        ∃ f i w, t.solveBetween start finish = .ok (.reached f i) ∧
          pointsOf (f.trail i) = w.map Place.point ∧ points = anchored start finish w ∧
          t.Walk s g w ∧ ∀ w', t.Walk s g w' → w.length ≤ w'.length := by
  obtain ⟨s, g, h1, h2, h⟩ := route_cases hc hs hf
  refine ⟨s, g, h1, h2, fun points hp => ?_⟩
  rcases h with ⟨f, i, w, hv, ht, hw, -, hmin, hr⟩ | ⟨-, -, hr⟩
  · rw [hp] at hr
    cases hr
    exact ⟨f, i, w, hv, ht, rfl, hw, hmin⟩
  · rw [hp] at hr
    cases hr

theorem route_shortest_walled : ∃ points w,
    walled.route ⟨.int 23, .int 71⟩ ⟨.int 197, .int 64⟩ = .ok (points, []) ∧
      points = anchored ⟨.int 23, .int 71⟩ ⟨.int 197, .int 64⟩ w ∧
      walled.Walk (20, 80) (200, 60) w ∧ w.length ≤ 17 := by
  obtain ⟨s, g, hs, hg, h⟩ :=
    route_shortest (by decide : 0 < walled.cell) accepts_walled_start accepts_walled_finish
  obtain ⟨rfl, rfl⟩ := snaps_walled hs hg
  obtain ⟨s, g, hs, hg, hcases⟩ :=
    route_cases (by decide : 0 < walled.cell) accepts_walled_start accepts_walled_finish
  obtain ⟨rfl, rfl⟩ := snaps_walled hs hg
  rcases hcases with ⟨-, -, w, -, -, -, -, -, hr⟩ | ⟨hno, -⟩
  · obtain ⟨-, -, v, -, -, hp, hv, hmin⟩ := h _ hr
    exact ⟨_, v, hr, hp, hv, hmin _ walk_walled⟩
  · exact absurd ⟨_, walk_walled⟩ hno

/-- **A route is found whenever there is one.** If a walk leads from the one snapped point to the other,
the route is the anchored form of such a walk; if there is none, it is the straight line. -/
theorem route_complete (hc : 0 < t.cell) (hs : t.Accepts start) (hf : t.Accepts finish) :
    ∃ s g, t.Snaps start s ∧ t.Snaps finish g ∧
      ((∃ w, t.Walk s g w) →
        ∃ w, t.Walk s g w ∧ t.route start finish = .ok (anchored start finish w, [])) ∧
      ((¬ ∃ w, t.Walk s g w) →
        t.route start finish =
          .ok ([start, finish], [.noRoute start.shown finish.shown])) := by
  obtain ⟨s, g, h1, h2, h⟩ := route_cases hc hs hf
  refine ⟨s, g, h1, h2, ?_⟩
  rcases h with ⟨f, i, w, -, -, hw, -, -, hr⟩ | ⟨hno, -, hr⟩
  · exact ⟨fun _ => ⟨w, hw, hr⟩, fun hno => absurd ⟨w, hw⟩ hno⟩
  · exact ⟨fun hw => absurd hw hno, fun _ => hr⟩

theorem route_complete_walled : ∃ w, walled.Walk (20, 80) (200, 60) w ∧
    walled.route ⟨.int 23, .int 71⟩ ⟨.int 197, .int 64⟩ =
      .ok (anchored ⟨.int 23, .int 71⟩ ⟨.int 197, .int 64⟩ w, []) := by
  obtain ⟨s, g, hs, hg, h, -⟩ :=
    route_complete (by decide : 0 < walled.cell) accepts_walled_start accepts_walled_finish
  obtain ⟨rfl, rfl⟩ := snaps_walled hs hg
  exact h ⟨_, walk_walled⟩

/-- **Every route is sound.** It has at least two points, begins at `start` and ends at `finish` by
value, and is the straight line or an anchored walk without repetition. -/
theorem route_sound (hc : 0 < t.cell) (hs : t.Accepts start) (hf : t.Accepts finish) :
    ∃ points notes, t.route start finish = .ok (points, notes) ∧ 2 ≤ points.length ∧
      (∃ p, points.head? = some p ∧ p.same start = true) ∧
      (∃ p, points.getLast? = some p ∧ p.same finish = true) ∧
      (points = [start, finish] ∨ ∃ s g w, t.Snaps start s ∧ t.Snaps finish g ∧ t.Walk s g w ∧
        w.Nodup ∧ points = anchored start finish w) := by
  obtain ⟨s, g, h1, h2, h⟩ := route_cases hc hs hf
  rcases h with ⟨f, i, w, -, -, hw, hn, -, hr⟩ | ⟨-, -, hr⟩
  · exact ⟨_, _, hr, two_le_length_anchored start finish hw.ne_nil,
      head_anchored hs.same hw.ne_nil, getLast_anchored hf.same hw.ne_nil,
      Or.inr ⟨s, g, w, h1, h2, hw, hn, rfl⟩⟩
  · exact ⟨_, _, hr, le_rfl, ⟨start, rfl, hs.same⟩, ⟨finish, rfl, hf.same⟩, Or.inl rfl⟩

theorem route_sound_walled : ∃ points notes,
    walled.route ⟨.int 23, .int 71⟩ ⟨.int 197, .int 64⟩ = .ok (points, notes) ∧ 2 ≤ points.length ∧
      (∃ p, points.head? = some p ∧ p.same ⟨.int 23, .int 71⟩ = true) ∧
      ∃ p, points.getLast? = some p ∧ p.same ⟨.int 197, .int 64⟩ = true := by
  obtain ⟨points, notes, h1, h2, h3, h4, -⟩ :=
    route_sound (by decide : 0 < walled.cell) accepts_walled_start accepts_walled_finish
  exact ⟨points, notes, h1, h2, h3, h4⟩

end Terrain

end Grid

end ErCanvas
