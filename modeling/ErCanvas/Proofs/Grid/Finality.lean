import Mathlib.Order.Bounds.Defs
import ErCanvas.Proofs.Grid.Route

/-! # Expanded nodes are final

The distance to the goal drops by at most a cell with every step, so no total of a node is smaller than that
of its parent. From this it follows that the best nodes are taken in the order of their totals, and with the
exactness of their costs that nothing is lost when a search passes over a neighbour that it has expanded.

* `Settled.total_le`: what is open after a round has no smaller total than the node expanded in it.
* `Explores.ordered`: the totals along a run.
* `Terrain.costs`: the costs of the walks to a place; `Settled.isLeast_done`, `Settled.isLeast_best`: expanded
  nodes and the best open one have the least.
* `Terrain.expanded_final`: all rounds of all searches. -/

namespace ErCanvas.Grid

/-- The costs of the walks between two places: a cell for every step. -/
def Terrain.costs (t : Terrain) (s p : Place) : Set ℤ :=
  {c | ∃ w, t.Walk s p w ∧ c = (w.length - 1 : ℕ) * t.cell}

namespace Search

variable {t : Terrain} {s g q : Place} {r r' : Search} {done : List ℕ} {i : ℕ}

/-! ### Totals -/

/-- What is open after a round was listed before it at no higher cost, or hangs on the node expanded in it. -/
theorem Settled.exists_listed (h : Settled t s r done) (hS : Sound t s g r' (i :: done))
    (hg : Grows (i :: done) r r') {j : ℕ} (hj : j ∈ r'.frontier.opens) :
    (t.Step (r'.frontier.place i) (r'.frontier.place j) ∧
        r'.frontier.cost j = r'.frontier.cost i + t.cell) ∨
      ∃ k, r.frontier.place k = r'.frontier.place j ∧
        (k ∈ done ∨ k ∈ r.frontier.opens ∧ r.frontier.cost k ≤ r'.frontier.cost j) := by
  rcases hS.linked j (hS.lt j (List.mem_append_left _ hj)) with
    ⟨-, hplace, hcost⟩ | ⟨p, hp, -, hstep, hfree, hcost⟩
  · obtain ⟨k, hk, hks, hk0⟩ := h.root
    refine .inr ⟨k, hks.trans hplace.symm, ?_⟩
    exact (List.mem_append.1 hk).symm.imp_right fun ho => ⟨ho, hk0.trans_eq hcost.symm⟩
  · rcases List.mem_cons.1 hp with rfl | hdone
    · exact .inl ⟨hstep, hcost⟩
    · have hcost : r'.frontier.cost j = r.frontier.cost p + t.cell := by
        rw [← hg.cost_done hp]
        exact hcost
      rw [hg.place_done hp] at hstep
      obtain ⟨k, hk, hlisted⟩ := h.covered p hdone _ hstep hfree
      exact .inr ⟨k, hk, hlisted.imp_right fun ho => ⟨ho.1, ho.2.trans_eq hcost.symm⟩⟩

/-- **A round leaves no smaller total open** than that of the node expanded in it. -/
theorem Settled.total_le (h : Settled t s r done) (hS : Sound t s g r done) (hc : 0 < t.cell)
    (hb : r.frontier.best? = some i) (hstep : (t.problem g).step r = .ok (.goOn r')) {j : ℕ}
    (hj : j ∈ r'.frontier.opens) : r.frontier.total i ≤ r'.frontier.total j := by
  obtain ⟨-, hS', hg, -⟩ := goOn_spec hS hb hstep
  obtain ⟨hi, hmin⟩ := Frontier.best?_eq_some hS.whole.node hb
  have htotal := hS'.total (hS'.lt j (List.mem_append_left _ hj))
  have hi' := hS'.lt i (List.mem_append_right _ List.mem_cons_self)
  rcases h.exists_listed hS' hg hj with ⟨hlink, hcost⟩ | ⟨k, hk, hdone | ⟨ho, hcost⟩⟩
  · -- a step brings the goal nearer by a cell at most
    have hfixed : r'.frontier.total i = r.frontier.total i :=
      congrArg (fun n => n.total.toInt) (hg.fixed i List.mem_cons_self)
    have hclose := hlink.symm.distance_le hc g
    rw [Terrain.distance_comm g, Terrain.distance_comm g] at hclose
    rw [← hfixed, hS'.total hi', htotal]
    omega
  · -- the place of an expanded node is not open
    have hdone' := List.mem_cons_of_mem i hdone
    have hplace := (hg.place_done hdone').trans hk
    have heq := hS'.eq_of_place_eq (List.mem_append_right _ hdone') (List.mem_append_left _ hj) hplace
    exact absurd (heq ▸ hj) (hS'.not_open_of_done hdone')
  · have hle := hmin k ho
    rw [hS.total (hS.lt k (List.mem_append_left _ ho)), hk] at hle
    omega

/-- **The totals along a run** never decrease, and what is open has no smaller one than what has been
expanded. -/
theorem Explores.ordered (h : Explores t s g r done) (hc : 0 < t.cell) :
    (done.map r.frontier.total).Pairwise (· ≥ ·) ∧
      ∀ d ∈ done, ∀ k ∈ r.frontier.opens, r.frontier.total d ≤ r.frontier.total k := by
  induction h with
  | start _ => exact ⟨.nil, nofun⟩
  | round hr hb hstep ih =>
    rename_i r r' done i
    obtain ⟨hsorted, hopen⟩ := ih
    obtain ⟨-, -, hg, -⟩ := goOn_spec hr.sound hb hstep
    have hi := best?_mem hr.sound hb
    have hfixed : ∀ d ∈ i :: done, r'.frontier.total d = r.frontier.total d :=
      fun d hd => congrArg (fun n => n.total.toInt) (hg.fixed d hd)
    refine ⟨?_, fun d hd k hk => ?_⟩
    · rw [List.map_congr_left hfixed, List.map_cons, List.pairwise_cons, List.forall_mem_map]
      exact ⟨fun d hd => hopen d hd i hi, hsorted⟩
    · have hle := (hr.settled hc).total_le hr.sound hc hb hstep hk
      rw [hfixed d hd]
      rcases List.mem_cons.1 hd with rfl | hd
      · exact hle
      · exact (hopen d hd i hi).trans hle

/-! ### Least costs -/

/-- A listed node has been reached at the cost of some walk. -/
theorem Sound.cost_mem (h : Sound t s g r done) (hc : 0 < t.cell) (hi : i ∈ r.frontier.opens ++ done) :
    r.frontier.cost i ∈ t.costs s (r.frontier.place i) := by
  obtain ⟨n, -, hcost⟩ := h.depth i (h.lt i hi)
  obtain ⟨hw, hlength, -⟩ := walk_ancestry h hc (n + 1) n i hi hcost n.lt_succ_self
  refine ⟨_, hw, ?_⟩
  rw [List.length_reverse, hlength, Nat.add_sub_cancel, hcost]

theorem isLeast_costs {p : Place} {c : ℤ} (hmem : c ∈ t.costs s p)
    (hle : ∀ w, t.Walk s p w → c + t.cell ≤ w.length * t.cell) : IsLeast (t.costs s p) c := by
  refine ⟨hmem, ?_⟩
  rintro _ ⟨w, hw, rfl⟩
  have := hle w hw
  have hpos := hw.length_pos
  rw [Int.natCast_sub hpos, sub_mul]
  omega

theorem Settled.isLeast_done (h : Settled t s r done) (hS : Sound t s g r done) (hc : 0 < t.cell) {d : ℕ}
    (hd : d ∈ done) : IsLeast (t.costs s (r.frontier.place d)) (r.frontier.cost d) :=
  isLeast_costs (hS.cost_mem hc (List.mem_append_right _ hd)) (h.exact d hd)

theorem Settled.isLeast_best (h : Settled t s r done) (hS : Sound t s g r done) (hc : 0 < t.cell)
    (hb : r.frontier.best? = some i) :
    IsLeast (t.costs s (r.frontier.place i)) (r.frontier.cost i) :=
  isLeast_costs (hS.cost_mem hc (List.mem_append_left _ (best?_mem hS hb)))
    fun _ hw => h.best_exact hS hc hb hw

/-- A place that has been expanded is reached through any neighbour at no lower cost. -/
theorem Settled.cost_le_of_closed (h : Settled t s r done) (hS : Sound t s g r done) (hc : 0 < t.cell)
    (hi : i ∈ r.frontier.opens ++ done) (hstep : t.Step (r.frontier.place i) q)
    (hclosed : Problem.isClosed r (.int q.1) (.int q.2) = true) :
    ∃ d ∈ done, r.frontier.place d = q ∧ r.frontier.cost d ≤ r.frontier.cost i + t.cell := by
  obtain ⟨d, hd, rfl⟩ := List.mem_map.1 ((hS.isClosed_iff q).1 hclosed)
  refine ⟨d, hd, rfl, ?_⟩
  rcases hS.place_cases (hS.lt d (List.mem_append_right _ hd)) with hroot | hfree
  · -- the start costs nothing
    obtain ⟨n, -, hcost⟩ := hS.depth i (hS.lt i hi)
    have hle := h.exact d hd [s] (by rw [hroot]; exact .single s)
    have hnonneg := mul_nonneg (Int.natCast_nonneg n) hc.le
    rw [List.length_singleton, Nat.cast_one, one_mul] at hle
    omega
  · -- one step more is a walk to it
    obtain ⟨w, hw, hcost⟩ := hS.cost_mem hc hi
    have hle := h.exact d hd _ (hw.snoc hstep hfree)
    rw [List.length_append, List.length_singleton, Int.natCast_succ, add_one_mul] at hle
    rw [Int.natCast_sub hw.length_pos, sub_mul, Nat.cast_one, one_mul] at hcost
    omega

end Search

namespace Terrain

open Search

variable {t : Terrain} {start finish : Point}

/-- **Expanded nodes are final.** In every round of every search between points that can be snapped, the total
of the best node is no smaller than that of any node expanded before, and no greater than that of the best
node of the next round. The best node and the expanded ones have the least cost of all walks to their places.
A neighbour of the best node that is passed over because it has been expanded costs no more than the way
through the best node. -/
theorem expanded_final (hc : 0 < t.cell) (hs : t.Accepts start) (hf : t.Accepts finish) :
    ∃ s g, t.Snaps start s ∧ t.Snaps finish g ∧
      ∀ r done i, Explores t s g r done → r.frontier.best? = some i →
        (∀ r' j, (t.problem g).step r = .ok (.goOn r') → r'.frontier.best? = some j →
          (r.frontier.node i).total.le (r'.frontier.node j).total = true) ∧
        ((i :: done).map r.frontier.total).Pairwise (· ≥ ·) ∧
        (∀ d ∈ i :: done, ∃ c, (r.frontier.node d).cost = .int c ∧
          IsLeast (t.costs s (r.frontier.place d)) c) ∧
        ∀ q, t.Step (r.frontier.place i) q → Problem.isClosed r (.int q.1) (.int q.2) = true →
          ∃ d ∈ done, r.frontier.place d = q ∧ r.frontier.cost d ≤ r.frontier.cost i + t.cell := by
  obtain ⟨s, hs, -⟩ := hs.exists_snaps
  obtain ⟨g, hg, -⟩ := hf.exists_snaps
  refine ⟨s, g, hs, hg, fun r done i hr hb => ?_⟩
  have hS := hr.sound
  have hsettled := hr.settled hc
  have hi := best?_mem hS hb
  obtain ⟨hsorted, hopen⟩ := hr.ordered hc
  refine ⟨fun r' j hstep hb' => ?_, ?_, fun d hd => ⟨r.frontier.cost d, ?_, ?_⟩,
    fun q => hsettled.cost_le_of_closed hS hc (List.mem_append_left _ hi)⟩
  · have hS' := (hr.round hb hstep).sound
    rw [congrArg Node.total (hS.whole.node i), congrArg Node.total (hS'.whole.node j)]
    exact decide_eq_true (hsettled.total_le hS hc hb hstep (best?_mem hS' hb'))
  · rw [List.map_cons, List.pairwise_cons, List.forall_mem_map]
    exact ⟨fun d hd => hopen d hd i hi, hsorted⟩
  · exact congrArg Node.cost (hS.whole.node d)
  · rcases List.mem_cons.1 hd with rfl | hd
    · exact hsettled.isLeast_best hS hc hb
    · exact hsettled.isLeast_done hS hc hd

/-- At the goal behind the box the search has come to a cost that no walk beats. -/
theorem expanded_final_walled : ∃ r done i c, Explores walled (20, 80) (200, 60) r done ∧
    r.frontier.best? = some i ∧ r.frontier.place i = (200, 60) ∧ (r.frontier.node i).cost = .int c ∧
      IsLeast (walled.costs (20, 80) (200, 60)) c ∧ c ≤ 320 ∧
      ((i :: done).map r.frontier.total).Pairwise (· ≥ ·) := by
  obtain ⟨s, g, hs, hg, h⟩ :=
    expanded_final (by decide : 0 < walled.cell) accepts_walled_start accepts_walled_finish
  obtain ⟨rfl, rfl⟩ := snaps_walled hs hg
  obtain ⟨v, -, hends⟩ := solve_spec walled (20, 80) (200, 60)
  cases v with
  | noWay => exact absurd ⟨_, walk_walled⟩ (noWay_spec (by decide) hends)
  | unfinished => exact hends.elim
  | reached f i =>
    obtain ⟨r, done, hr, rfl, hb, hnear⟩ := hends
    have hlt := hr.sound.lt i (List.mem_append_left _ (best?_mem hr.sound hb))
    have hgoal : r.frontier.place i = (200, 60) :=
      eq_of_near ⟨by decide, by decide⟩ (hr.sound.aligned i hlt) hnear
    obtain ⟨-, hsorted, hleast, -⟩ := h r done i hr hb
    obtain ⟨c, hc, hcost⟩ := hleast i List.mem_cons_self
    rw [hgoal] at hcost
    exact ⟨r, done, i, c, hr, hb, hgoal, hc, hcost, hcost.2 ⟨_, walk_walled, rfl⟩, hsorted⟩

end Terrain

end ErCanvas.Grid
