import Mathlib.Algebra.Order.Ring.Int
import ErCanvas.Proofs.Grid.Run

/-! # The search is exact

The distance to the goal along the axes never exceeds what a walk there costs and drops by at most a
cell with every step. From this it follows that a node that is expanded has been reached at the
least cost, so a cheaper way to it never turns up later.

* `Settled`: the invariant; expanded nodes have their least cost and all their free neighbours are
  listed.
* `Settled.exists_open`: on every walk to a place that is not expanded some node is open, at a cost
  that the walk can meet.
* `walk_ancestry`: the way back along the parents is a walk without repetition.
* `reached_spec`, `noWay_spec`: what the two verdicts say about the walks from the start to the
  goal. -/

namespace ErCanvas.Grid.Search

variable {t : Terrain} {s g p : Place} {r r' : Search} {done : List ℕ} {i : ℕ} {w : List Place}

/-- **The invariant of exactness**: the root is listed, the free neighbours of expanded nodes are
listed, and no walk to the place of an expanded node is cheaper than the node. -/
structure Settled (t : Terrain) (s : Place) (r : Search) (done : List ℕ) : Prop where
  root : ∃ i ∈ r.frontier.opens ++ done, r.frontier.place i = s ∧ r.frontier.cost i ≤ 0
  covered : ∀ d ∈ done, ∀ q, t.Step (r.frontier.place d) q → t.Free q → Covered t r done d q
  exact : ∀ d ∈ done, ∀ w, t.Walk s (r.frontier.place d) w →
    r.frontier.cost d + t.cell ≤ w.length * t.cell

/-! ### Exactness -/

/-- On a walk to a place that is not expanded some node is open, at a cost that leaves the walk
enough for the rest. -/
theorem Settled.exists_open (h : Settled t s r done) (hc : 0 < t.cell) (hw : t.Walk s p w) :
    p ∈ done.map r.frontier.place ∨ ∃ j ∈ r.frontier.opens,
      r.frontier.cost j + distance (r.frontier.place j) p + t.cell ≤ w.length * t.cell := by
  induction hw using Terrain.Walk.induct with
  | single =>
    obtain ⟨j, hj, hp, hcost⟩ := h.root
    rcases List.mem_append.1 hj with ho | hd
    · refine Or.inr ⟨j, ho, ?_⟩
      rw [hp, Terrain.distance_self]
      simp only [List.length_singleton, Nat.cast_one]
      omega
    · exact Or.inl (List.mem_map.2 ⟨j, hd, hp⟩)
  | snoc v p q hv hs hf ih =>
    have hlen : ((v ++ [q]).length : ℤ) * t.cell = v.length * t.cell + t.cell := by
      rw [List.length_append, List.length_singleton, Nat.cast_add, Nat.cast_one, add_one_mul]
    rw [hlen]
    rcases ih with hp | ⟨j, hj, hb⟩
    · -- the step leaves an expanded node, whose neighbours are listed
      obtain ⟨d, hd, rfl⟩ := List.mem_map.1 hp
      have hexact := h.exact d hd v hv
      obtain ⟨j, hp, hj⟩ := h.covered d hd q hs hf
      rcases hj with hj | ⟨hj, hcost⟩
      · exact Or.inl (List.mem_map.2 ⟨j, hj, hp⟩)
      · refine Or.inr ⟨j, hj, ?_⟩
        rw [hp, Terrain.distance_self]
        omega
    · have := hs.distance_le hc (r.frontier.place j)
      exact Or.inr ⟨j, hj, by omega⟩

/-- **The best open node has its least cost.** -/
theorem Settled.best_exact (h : Settled t s r done) (hS : Sound t s g r done) (hc : 0 < t.cell)
    (hb : r.frontier.best? = some i) (hw : t.Walk s (r.frontier.place i) w) :
    r.frontier.cost i + t.cell ≤ w.length * t.cell := by
  obtain ⟨hi, hmin⟩ := Frontier.best?_eq_some hS.whole.node hb
  have hlisted := List.mem_append_left done hi
  rcases h.exists_open hc hw with hd | ⟨j, hj, hbound⟩
  · obtain ⟨d, hd, hp⟩ := List.mem_map.1 hd
    have := hS.eq_of_place_eq (List.mem_append_right _ hd) hlisted hp
    exact absurd (this ▸ hi) (hS.not_open_of_done hd)
  · have hle := hmin j hj
    rw [hS.total (hS.lt i hlisted), hS.total (hS.lt j (List.mem_append_left _ hj))] at hle
    have := Terrain.distance_triangle (r.frontier.place j) (r.frontier.place i) g
    omega

/-- A round that goes on keeps the invariant of exactness. -/
theorem Settled.round (h : Settled t s r done) (hS : Sound t s g r done) (hc : 0 < t.cell)
    (hb : r.frontier.best? = some i) (hg : Grows (i :: done) r r')
    (hi : ∀ q, t.Step (r.frontier.place i) q → t.Free q → Covered t r' (i :: done) i q) :
    Settled t s r' (i :: done) := by
  refine ⟨?_, ?_, ?_⟩
  · obtain ⟨k, hk, hp, hcost⟩ := h.root
    rcases List.mem_append.1 hk with ho | hd
    · refine ⟨k, List.mem_append.2 (hg.opens k ho), (hg.place k ho).trans hp, ?_⟩
      exact (hg.cost k ho).trans hcost
    · have hd := List.mem_cons_of_mem i hd
      exact ⟨k, List.mem_append_right _ hd, (hg.place_done hd).trans hp,
        (hg.cost_done hd).trans_le hcost⟩
  · intro d hd q hs hf
    rw [hg.place_done hd] at hs
    rcases List.mem_cons.1 hd with rfl | hd'
    · exact hi q hs hf
    · obtain ⟨j, hp, hj⟩ := h.covered d hd' q hs hf
      exact Covered.grow ⟨j, hp, hj.imp_left (List.mem_cons_of_mem i)⟩ hg hd
  · intro d hd w hw
    rw [hg.place_done hd] at hw
    rw [hg.cost_done hd]
    rcases List.mem_cons.1 hd with rfl | hd
    · exact h.best_exact hS hc hb hw
    · exact h.exact d hd w hw

/-- **Exactness holds all along a run.** -/
theorem Explores.settled (h : Explores t s g r done) (hc : 0 < t.cell) : Settled t s r done := by
  induction h with
  | start h =>
    obtain ⟨r₀, h₀, -, hopens, hp, hcost⟩ := sound_start t s g
    rw [h] at h₀
    cases h₀
    refine ⟨⟨0, ?_, hp, hcost.le⟩, ?_, ?_⟩
    · rw [hopens]; exact List.mem_cons_self
    · exact fun d hd => absurd hd List.not_mem_nil
    · exact fun d hd => absurd hd List.not_mem_nil
  | round hr hb h ih =>
    obtain ⟨-, -, hg, hi⟩ := goOn_spec hr.sound hb h
    exact ih.round hr.sound hc hb hg hi

/-! ### The way back -/

theorem whole_ancestry {f : Frontier} (hw : ∀ i, (f.node i).Whole) :
    ∀ (fuel i : ℕ), ∀ n ∈ f.ancestry fuel i, n.Whole
  | 0, _ => by simp [Frontier.ancestry]
  | fuel + 1, i => by
    intro n hn
    unfold Frontier.ancestry at hn
    simp only at hn
    split at hn
    · rw [List.mem_singleton] at hn
      exact hn ▸ hw i
    · rcases List.mem_cons.1 hn with rfl | hn
      · exact hw i
      · exact whole_ancestry hw fuel _ n hn

theorem pointsOf_whole {l : List Node} (hl : ∀ n ∈ l, n.Whole) :
    pointsOf l = (l.map Node.place).map Place.point := by
  unfold pointsOf
  rw [List.map_map]
  refine List.map_congr_left fun n hn => ?_
  rw [hl n hn]
  rfl

/-- **The way back along the parents** from a listed node is a walk without repetition, one place
longer than the cost in cells. -/
theorem walk_ancestry (h : Sound t s g r done) (hc : 0 < t.cell) : ∀ (fuel n i : ℕ),
    i ∈ r.frontier.opens ++ done → r.frontier.cost i = n * t.cell → n < fuel →
    t.Walk s (r.frontier.place i) ((r.frontier.ancestry fuel i).map Node.place).reverse ∧
      ((r.frontier.ancestry fuel i).map Node.place).length = n + 1 ∧
      ((r.frontier.ancestry fuel i).map Node.place).Nodup ∧
      ∀ p ∈ (r.frontier.ancestry fuel i).map Node.place, ∃ j ∈ r.frontier.opens ++ done,
        r.frontier.place j = p ∧ r.frontier.cost j ≤ r.frontier.cost i
  | 0, _, _, _, _, hn => absurd hn (Nat.not_lt_zero _)
  | fuel + 1, n, i, hi, hcost, hn => by
    rcases h.linked i (h.lt i hi) with ⟨hpar, hp, hzero⟩ | ⟨k, hk, hpar, hs, hf, hck⟩
    · have hn0 : n = 0 := by
        have : (n : ℤ) * t.cell = 0 := hcost.symm.trans hzero
        rcases Int.mul_eq_zero.1 this with h0 | h0 <;> omega
      have ha : r.frontier.ancestry (fuel + 1) i = [r.frontier.node i] := by
        simp only [Frontier.ancestry, hpar]
      subst hn0
      rw [ha]
      refine ⟨?_, rfl, List.nodup_singleton _, ?_⟩
      · show t.Walk s (r.frontier.node i).place [(r.frontier.node i).place]
        rw [hp]
        exact .single s
      · intro q hq
        rw [List.map_singleton, List.mem_singleton] at hq
        exact ⟨i, hi, hq.symm, le_rfl⟩
    · obtain ⟨m, -, hm⟩ := h.depth_done k hk
      have hnm : n = m + 1 := by
        have : (n : ℤ) * t.cell = (m + 1) * t.cell := by
          rw [← hcost, add_mul, one_mul, ← hm]; exact hck
        exact_mod_cast Int.eq_of_mul_eq_mul_right hc.ne' this
      subst hnm
      have hk' := List.mem_append_right r.frontier.opens hk
      obtain ⟨h1, h2, h3, h4⟩ := walk_ancestry h hc fuel m k hk' hm (by omega)
      have ha : r.frontier.ancestry (fuel + 1) i =
          r.frontier.node i :: r.frontier.ancestry fuel k := by
        simp only [Frontier.ancestry, hpar]
      have hlt : r.frontier.cost k < r.frontier.cost i := by
        have : r.frontier.cost i = r.frontier.cost k + t.cell := hck
        omega
      rw [ha, List.map_cons, List.reverse_cons]
      refine ⟨h1.snoc hs hf, by rw [List.length_cons, h2], List.nodup_cons.2 ⟨?_, h3⟩, ?_⟩
      · intro hmem
        obtain ⟨j, hj, hp, hle⟩ := h4 _ hmem
        have := h.eq_of_place_eq hj hi hp
        rw [this] at hle
        omega
      · intro q hq
        rcases List.mem_cons.1 hq with rfl | hq
        · exact ⟨i, hi, rfl, le_rfl⟩
        · obtain ⟨j, hj, hp, hle⟩ := h4 q hq
          exact ⟨j, hj, hp, hle.trans hlt.le⟩

/-- There are as many nodes as listed ones at least. -/
theorem Sound.length_listed_le (h : Sound t s g r done) :
    (r.frontier.opens ++ done).length ≤ r.frontier.nodes.size := by
  have hn := List.Nodup.of_map _ h.nodup
  have hsub : r.frontier.opens ++ done ⊆ List.range r.frontier.nodes.size :=
    fun k hk => List.mem_range.2 (h.lt k hk)
  simpa using (List.subperm_of_subset hn hsub).length_le

/-! ### Verdicts -/

/-- **At the goal** the way back is a shortest walk, without repetition. -/
theorem reached_spec (hc : 0 < t.cell) (hg : t.Aligned s g) {f : Frontier}
    (h : Ends t s g (.reached f i)) : ∃ w, pointsOf (f.trail i) = w.map Place.point ∧
      t.Walk s g w ∧ w.Nodup ∧ ∀ w', t.Walk s g w' → w.length ≤ w'.length := by
  obtain ⟨r, done, hr, rfl, hb, hn⟩ := h
  have hS := hr.sound
  have hi := best?_mem hS hb
  have hlisted := List.mem_append_left done hi
  have hlt := hS.lt i hlisted
  have hgoal : r.frontier.place i = g := Terrain.eq_of_near hg (hS.aligned i hlt) hn
  obtain ⟨n, hn, hcost⟩ := hS.depth i hlt
  have hfuel : n < r.frontier.nodes.size := by
    have h1 := hS.length_listed_le
    have h2 := List.length_pos_of_mem hi
    rw [List.length_append] at h1
    omega
  obtain ⟨h1, h2, h3, -⟩ := walk_ancestry hS hc _ n i hlisted hcost hfuel
  rw [hgoal] at h1
  refine ⟨_, ?_, h1, List.nodup_reverse.2 h3, ?_⟩
  · rw [← List.map_reverse]
    exact pointsOf_whole fun n hn =>
      whole_ancestry hS.whole.node _ i n (List.mem_reverse.1 hn)
  · intro w' hw'
    have hexact := (hr.settled hc).best_exact hS hc hb (hgoal.symm ▸ hw')
    rw [hcost, ← add_one_mul] at hexact
    have := Int.le_of_mul_le_mul_right hexact hc
    rw [List.length_reverse, h2]
    omega

/-- **Without an open node** there is no walk to the goal. -/
theorem noWay_spec (hc : 0 < t.cell) (h : Ends t s g .noWay) : ¬ ∃ w, t.Walk s g w := by
  rintro ⟨w, hw⟩
  obtain ⟨r, done, hr, hb⟩ := h
  rcases (hr.settled hc).exists_open hc hw with hd | ⟨j, hj, -⟩
  · obtain ⟨d, hd, hp⟩ := List.mem_map.1 hd
    exact hr.not_near d hd (hp ▸ Terrain.near_self hc g)
  · rw [Frontier.best?_eq_none hb] at hj
    cases hj

end ErCanvas.Grid.Search
