import ErCanvas.Proofs.Grid.Halting

/-! # What a search sees of the obstacles

A search asks about the obstacles only where it may go next: one cell from a node that it expands, and so
whole cells from its start, and only after the place has turned out to be on the canvas. Two searches for
which the same of these places are blocked go side by side, round by round, and open the same nodes in the same
order; whether a cost is lowered and which of two equally good nodes is taken cannot differ either.

* `Terrain.Blocked`, `Terrain.AgreesFrom`: the blocked places, and lists of obstacles that block the same
  ones.
* `visit_congr`, `expand_congr`, `step_congr`: one visit, one expansion and one round.
* `run_congr`: all rounds.
* `route_congr_of_blocked`: the routes. -/

namespace ErCanvas.Grid

namespace Terrain

variable {t : Terrain} {s g p : Place} {boxes : List Box}

/-! ### Blocked places -/

/-- The terrain with other obstacles. -/
def withBoxes (t : Terrain) (boxes : List Box) : Terrain := { t with boxes }

/-- The place is in an obstacle grown by a cell. -/
def Blocked (t : Terrain) (p : Place) : Prop := ∃ b ∈ t.boxes, b.Covers t.cell p

/-- The place is one that a search from `s` may ask about: on the canvas, whole cells away from `s`. -/
def OnGrid (t : Terrain) (s p : Place) : Prop := t.OnCanvas p ∧ t.Aligned s p

/-- Of the places that a search from `s` may ask about, these obstacles block the same ones as those of the
terrain. -/
def AgreesFrom (t : Terrain) (s : Place) (boxes : List Box) : Prop :=
  ∀ p, t.OnGrid s p → (t.Blocked p ↔ (t.withBoxes boxes).Blocked p)

theorem free_iff : t.Free p ↔ t.OnCanvas p ∧ ¬ t.Blocked p := by
  unfold Blocked
  push Not
  exact Iff.rfl

theorem AgreesFrom.free_iff (h : t.AgreesFrom s boxes) (hp : t.Aligned s p) :
    (t.withBoxes boxes).Free p ↔ t.Free p := by
  rw [Terrain.free_iff, Terrain.free_iff]
  exact and_congr_right fun hcanvas => not_congr (h p ⟨hcanvas, hp⟩).symm

/-- Lists agree if every obstacle that blocks a place of the grid is in both or in none of them. -/
theorem agreesFrom_of_mem_iff
    (h : ∀ b : Box, (∃ p, t.OnGrid s p ∧ b.Covers t.cell p) → (b ∈ t.boxes ↔ b ∈ boxes)) :
    t.AgreesFrom s boxes := fun p hp =>
  exists_congr fun b => and_congr_left fun hcovers => h b ⟨p, hp, hcovers⟩

end Terrain

/-! ### Side by side -/

namespace Search

variable {t : Terrain} {s g q : Place} {r : Search} {done : List ℕ} {i : ℕ} {boxes : List Box}

theorem isFree_congr (ha : t.AgreesFrom s boxes) (hq : t.Aligned s q) :
    ((t.withBoxes boxes).problem g).isFree (.int q.1) (.int q.2) =
      (t.problem g).isFree (.int q.1) (.int q.2) := by
  rw [Terrain.isFree_problem, Terrain.isFree_problem, decide_eq_decide.2 (ha.free_iff hq)]

/-- **One visit** of a neighbour of an expanded node. -/
theorem visit_congr (ha : t.AgreesFrom s boxes) (h : Sound t s g r done) (hi : i ∈ done)
    (hs : t.Step (r.frontier.place i) q) :
    ((t.withBoxes boxes).problem g).visit i r (.int q.1, .int q.2) =
      (t.problem g).visit i r (.int q.1, .int q.2) := by
  have hq : t.Aligned s q := (h.aligned i (h.lt i (List.mem_append_right _ hi))).step hs
  simp only [Problem.visit, isFree_congr ha hq]
  rfl

theorem visits_congr (ha : t.AgreesFrom s boxes) : ∀ (l : List Place) (r : Search), Sound t s g r done →
    i ∈ done → (∀ q ∈ l, t.Step (r.frontier.place i) q) →
    (l.map fun q : Place => (Number.int q.1, Number.int q.2)).foldlM
        (((t.withBoxes boxes).problem g).visit i) r =
      (l.map fun q : Place => (Number.int q.1, Number.int q.2)).foldlM ((t.problem g).visit i) r
  | [], _, _, _, _ => rfl
  | q :: l, r, h, hi, hl => by
    obtain ⟨r₁, hvisit, h₁, hgrows, -⟩ := visit_spec h hi (hl q List.mem_cons_self)
    rw [List.map_cons, List.foldlM_cons, List.foldlM_cons, visit_congr ha h hi (hl q List.mem_cons_self),
      hvisit, Outcome.ok_bind, Outcome.ok_bind]
    refine visits_congr ha l r₁ h₁ hi fun q' hq' => ?_
    rw [hgrows.place_done hi]
    exact hl q' (List.mem_cons_of_mem q hq')

/-- **One expansion** of an open node. -/
theorem expand_congr (ha : t.AgreesFrom s boxes) (h : Sound t s g r done) (hi : i ∈ r.frontier.opens) :
    ((t.withBoxes boxes).problem g).expand r i = (t.problem g).expand r i := by
  obtain ⟨f, hf, h₀, hgrows⟩ := h.close hi
  have hvisits := visits_congr (g := g) ha (t.around (r.frontier.place i)) _ h₀ List.mem_cons_self
    fun q hq => by
      rw [hgrows.place_done List.mem_cons_self]
      exact Terrain.mem_around.1 hq
  have hn := h.node i (h.lt i (List.mem_append_left _ hi))
  unfold Problem.expand
  rw [hf, hn]
  exact hvisits

/-- **One round.** -/
theorem step_congr (ha : t.AgreesFrom s boxes) (h : Sound t s g r done) :
    ((t.withBoxes boxes).problem g).step r = (t.problem g).step r := by
  unfold Problem.step
  cases hb : r.frontier.best? with
  | none => rfl
  | some i =>
    simp only [expand_congr ha h (best?_mem h hb)]
    rfl

/-- **All rounds** of searches side by side. -/
theorem run_congr (ha : t.AgreesFrom s boxes) : ∀ (fuel : ℕ) (r : Search) (done : List ℕ),
    Explores t s g r done →
    ((t.withBoxes boxes).problem g).run fuel r = (t.problem g).run fuel r
  | 0, _, _, _ => rfl
  | fuel + 1, r, done, h => by
    unfold Problem.run
    rw [step_congr ha h.sound]
    rcases step_cases h.sound with ⟨-, he⟩ | ⟨i, -, -, he⟩ | ⟨i, r', hb, -, he⟩
    · rw [he]
      rfl
    · rw [he]
      rfl
    · rw [he]
      exact run_congr ha fuel r' (i :: done) (h.round hb he)

theorem solve_congr (ha : t.AgreesFrom s boxes) :
    ((t.withBoxes boxes).problem g).solve (.int s.1) (.int s.2) =
      (t.problem g).solve (.int s.1) (.int s.2) := by
  obtain ⟨r, hr, -⟩ := sound_start t s g
  have hr' : ((t.withBoxes boxes).problem g).start (.int s.1) (.int s.2) = .ok r := hr
  unfold Problem.solve
  rw [hr, hr']
  exact run_congr ha _ r [] (.start hr)

end Search

/-! ### Routes -/

namespace Terrain

variable {t : Terrain} {s : Place} {boxes : List Box} {start finish : Point}

theorem route_congr (ha : t.AgreesFrom s boxes) (hs : t.Snaps start s) (hf : t.Accepts finish) :
    (t.withBoxes boxes).route start finish = t.route start finish := by
  obtain ⟨g, hg, -⟩ := hf.exists_snaps
  have hsolve : (t.withBoxes boxes).solveBetween start finish = t.solveBetween start finish := by
    rw [solveBetween_eq hs hg, solveBetween_eq (t := t.withBoxes boxes) hs hg, Search.solve_congr ha]
  unfold solveBetween at hsolve
  unfold route Grid.route
  rw [hsolve]

/-- **Routes depend on the obstacles through the blocked places of the grid alone.** There is a route between
two points that can be snapped, and it is the same one, with the same notes, for all lists of obstacles that
block the same places on the canvas whole cells away from the snapped start. Such are all lists that have
the same obstacles but for those that block no such place, in any order and however often. -/
theorem route_congr_of_blocked (hc : 0 < t.cell) (hs : t.Accepts start) (hf : t.Accepts finish) :
    ∃ s, t.Snaps start s ∧
      (∀ boxes, t.AgreesFrom s boxes → ∃ points notes, t.route start finish = .ok (points, notes) ∧
        (t.withBoxes boxes).route start finish = .ok (points, notes)) ∧
      ∀ boxes, (∀ b : Box, (∃ p, t.OnGrid s p ∧ b.Covers t.cell p) → (b ∈ t.boxes ↔ b ∈ boxes)) →
        (t.withBoxes boxes).route start finish = t.route start finish := by
  obtain ⟨s, g, hs, -, hcases⟩ := route_cases hc hs hf
  have hroute : ∃ points notes, t.route start finish = .ok (points, notes) := by
    rcases hcases with ⟨f, i, w, -, -, -, -, -, hr⟩ | ⟨-, -, hr⟩
    · exact ⟨_, _, hr⟩
    · exact ⟨_, _, hr⟩
  obtain ⟨points, notes, hroute⟩ := hroute
  refine ⟨s, hs, fun boxes ha => ⟨points, notes, hroute, ?_⟩, fun boxes hmem => ?_⟩
  · rw [route_congr ha hs hf, hroute]
  · exact route_congr (agreesFrom_of_mem_iff hmem) hs hf

/-- Other obstacles that block the same places of the grid: one lies off the canvas, and one that is a little
larger than the box stands there twice. -/
def rewalled : List Box := [⟨900, 900, 5, 5⟩, ⟨75, 35, 55, 70⟩, ⟨75, 35, 55, 70⟩]

theorem agreesFrom_rewalled : walled.AgreesFrom (20, 80) rewalled := by
  rintro ⟨x, y⟩ ⟨⟨⟨hx0, hx⟩, hy0, hy⟩, hdx, hdy⟩
  simp only [Blocked, withBoxes, walled, rewalled, Box.Covers, List.mem_cons, List.not_mem_nil, or_false,
    exists_eq_or_imp, exists_eq_left] at hx0 hx hy0 hy hdx hdy ⊢
  omega

theorem route_congr_of_blocked_walled : walled.AgreesFrom (20, 80) rewalled ∧ ∃ points notes,
    walled.route ⟨.int 23, .int 71⟩ ⟨.int 197, .int 64⟩ = .ok (points, notes) ∧
      (walled.withBoxes rewalled).route ⟨.int 23, .int 71⟩ ⟨.int 197, .int 64⟩ = .ok (points, notes) := by
  obtain ⟨s, hs, h, -⟩ :=
    route_congr_of_blocked (by decide : 0 < walled.cell) accepts_walled_start accepts_walled_finish
  have hsnaps : walled.Snaps ⟨.int 23, .int 71⟩ (20, 80) := ⟨by decide +kernel, by decide +kernel⟩
  obtain rfl := hs.unique hsnaps
  exact ⟨agreesFrom_rewalled, h rewalled agreesFrom_rewalled⟩

end Terrain

end ErCanvas.Grid
