import Mathlib.Data.List.Nodup
import Mathlib.Data.Rat.Cast.Defs
import ErCanvas.Proofs.Grid.Frontier

/-! # What a search has explored

The invariant of a search on whole terrain. Beside the search stands the list `done` of the nodes it
has expanded, the last one first; the expanded and the open nodes are the *listed* ones.

* `Sound`: every node but the root hangs on an expanded node one step away, costs one cell more than
  it and stands at a free place; no two listed nodes share a place; the closed positions are the
  places of the expanded nodes.
* `visit_spec`, `expand_spec`: one visit and one expansion succeed, keep the invariant, change
  expanded nodes no more, and leave every free neighbour of the expanded node listed.
* `sound_start`: the search before its first round. -/

namespace ErCanvas.Grid

open Terrain (nodeFor)

/-- The data of a node are those of the root, or it is one free step away from its parent, which has
been expanded. -/
def Linked (t : Terrain) (s : Place) (f : Frontier) (done : List ℕ) (n : Node) : Prop :=
  (n.parent = none ∧ n.place = s ∧ n.cost.toInt = 0) ∨
    ∃ p ∈ done, n.parent = some p ∧ t.Step (f.place p) n.place ∧ t.Free n.place ∧
      n.cost.toInt = f.cost p + t.cell

/-- A node that hangs on an expanded node still does when expanded nodes stay as they are. -/
theorem Linked.congr {t : Terrain} {s : Place} {f f' : Frontier} {done : List ℕ} {n : Node}
    (hl : Linked t s f done n)
    (hf : ∀ d ∈ done, f'.node d = f.node d) : Linked t s f' done n := by
  refine hl.imp_right ?_
  rintro ⟨p, hp, h1, h2, h3, h4⟩
  have hpl : f'.place p = f.place p := Frontier.place_of_node (hf p hp)
  have hco : f'.cost p = f.cost p := Frontier.cost_of_node (hf p hp)
  exact ⟨p, hp, h1, hpl ▸ h2, h3, hco ▸ h4⟩

namespace Search

/-- **The invariant** of a search for `g` from `s` that has expanded the nodes `done`. -/
structure Sound (t : Terrain) (s g : Place) (r : Search) (done : List ℕ) : Prop where
  node : ∀ i < r.frontier.nodes.size,
    r.frontier.node i =
      nodeFor g (r.frontier.place i) (r.frontier.cost i) (r.frontier.node i).parent
  linked : ∀ i < r.frontier.nodes.size, Linked t s r.frontier done (r.frontier.node i)
  aligned : ∀ i < r.frontier.nodes.size, t.Aligned s (r.frontier.place i)
  depth : ∀ i < r.frontier.nodes.size, ∃ n ≤ done.length, r.frontier.cost i = n * t.cell
  depth_done : ∀ i ∈ done, ∃ n < done.length, r.frontier.cost i = n * t.cell
  lt : ∀ i ∈ r.frontier.opens ++ done, i < r.frontier.nodes.size
  nodup : ((r.frontier.opens ++ done).map r.frontier.place).Nodup
  closed : ∀ p : Place, r.closed.contains p.key = true ↔ p ∈ done.map r.frontier.place

/-- What later rounds keep of a search, `done` being the nodes expanded by then: expanded nodes stay
as they are, open ones keep their places and cost no more. -/
structure Grows (done : List ℕ) (r r' : Search) : Prop where
  fixed : ∀ d ∈ done, r'.frontier.node d = r.frontier.node d
  place : ∀ k ∈ r.frontier.opens, r'.frontier.place k = r.frontier.place k
  cost : ∀ k ∈ r.frontier.opens, r'.frontier.cost k ≤ r.frontier.cost k
  opens : ∀ k ∈ r.frontier.opens, k ∈ r'.frontier.opens ∨ k ∈ done

/-- The neighbour `q` of the expanded node `i` is listed, and if it is open it costs at most one cell
more. -/
def Covered (t : Terrain) (r : Search) (done : List ℕ) (i : ℕ) (q : Place) : Prop :=
  ∃ j, r.frontier.place j = q ∧
    (j ∈ done ∨ j ∈ r.frontier.opens ∧ r.frontier.cost j ≤ r.frontier.cost i + t.cell)

variable {t : Terrain} {s g q : Place} {r r₁ r₂ : Search} {done : List ℕ} {i : ℕ}

/-! ### Growth -/

theorem Grows.refl (done : List ℕ) (r : Search) : Grows done r r :=
  ⟨fun _ _ => rfl, fun _ _ => rfl, fun _ _ => Int.le_refl _, fun _ h => Or.inl h⟩

theorem Grows.place_done (h : Grows done r r₁) {d : ℕ} (hd : d ∈ done) :
    r₁.frontier.place d = r.frontier.place d := by
  unfold Frontier.place; rw [h.fixed d hd]

theorem Grows.cost_done (h : Grows done r r₁) {d : ℕ} (hd : d ∈ done) :
    r₁.frontier.cost d = r.frontier.cost d := by
  unfold Frontier.cost; rw [h.fixed d hd]

theorem Grows.trans (h₁ : Grows done r r₁) (h₂ : Grows done r₁ r₂) : Grows done r r₂ := by
  refine ⟨fun d hd => (h₂.fixed d hd).trans (h₁.fixed d hd), fun k hk => ?_, fun k hk => ?_,
    fun k hk => ?_⟩
  · rcases h₁.opens k hk with ho | hd
    · rw [h₂.place k ho, h₁.place k hk]
    · rw [h₂.place_done hd, h₁.place_done hd]
  · rcases h₁.opens k hk with ho | hd
    · exact Int.le_trans (h₂.cost k ho) (h₁.cost k hk)
    · exact Int.le_of_eq ((h₂.cost_done hd).trans (h₁.cost_done hd))
  · rcases h₁.opens k hk with ho | hd
    · exact h₂.opens k ho
    · exact Or.inr hd

/-- Growth leaves a covered neighbour covered. -/
theorem Covered.grow (h : Covered t r done i q) (hg : Grows done r r₁) (hi : i ∈ done) :
    Covered t r₁ done i q := by
  obtain ⟨j, hp, hj⟩ := h
  rcases hj with hj | ⟨hj, hc⟩
  · exact ⟨j, (hg.place_done hj).trans hp, Or.inl hj⟩
  · refine ⟨j, (hg.place j hj).trans hp, ?_⟩
    rcases hg.opens j hj with ho | hd
    · refine Or.inr ⟨ho, ?_⟩
      rw [hg.cost_done hi]
      exact Int.le_trans (hg.cost j hj) hc
    · exact Or.inl hd

/-! ### Facts about a sound search -/

namespace Sound

variable (h : Sound t s g r done)
include h

theorem whole : r.frontier.Whole := by
  refine ⟨fun i => ?_, fun i hi => h.lt i (List.mem_append_left _ hi)⟩
  rcases Nat.lt_or_ge i r.frontier.nodes.size with hi | hi
  · rw [h.node i hi]; exact Node.whole_nodeFor ..
  · rw [Frontier.node_of_size_le hi]; exact Node.whole_default

theorem total {i : ℕ} (hi : i < r.frontier.nodes.size) :
    r.frontier.total i = r.frontier.cost i + distance (r.frontier.place i) g := by
  rw [Frontier.total, h.node i hi]; rfl

/-- Listed nodes at the same place are the same. -/
theorem eq_of_place_eq {i j : ℕ} (hi : i ∈ r.frontier.opens ++ done)
    (hj : j ∈ r.frontier.opens ++ done) (hp : r.frontier.place i = r.frontier.place j) : i = j :=
  List.inj_on_of_nodup_map h.nodup hi hj hp

theorem not_open_of_done {d : ℕ} (hd : d ∈ done) : d ∉ r.frontier.opens := by
  have hn := List.Nodup.of_map _ h.nodup
  exact fun ho => (List.disjoint_of_nodup_append hn) ho hd

theorem isClosed_iff (q : Place) :
    Problem.isClosed r (.int q.1) (.int q.2) = true ↔ q ∈ done.map r.frontier.place := by
  rw [← h.closed q]
  simp [Problem.isClosed, Place.key]

end Sound

/-! ### Offering a node -/

section Offer

variable (h : Sound t s g r done) (hi : i ∈ done) (hs : t.Step (r.frontier.place i) q)
  (hfree : t.Free q) (hnew : q ∉ done.map r.frontier.place)
include h hi hs hfree hnew

/-- Offering the neighbour `q` of an expanded node keeps the invariant. -/
theorem Sound.offer {f' : Frontier}
    (ho : r.frontier.Offered f' (nodeFor g q (r.frontier.cost i + t.cell) (some i))) :
    Sound t s g { r with frontier := f' } done ∧ Grows done r { r with frontier := f' } ∧
      Covered t { r with frontier := f' } done i q := by
  have hlt : ∀ d ∈ done, d < r.frontier.nodes.size := fun d hd =>
    h.lt d (List.mem_append_right _ hd)
  have hdone : ∀ d ∈ done, f'.node d = r.frontier.node d := fun d hd =>
    (ho.node d (hlt d hd)).resolve_right fun hk => h.not_open_of_done hd hk.1
  have hmap : done.map f'.place = done.map r.frontier.place :=
    List.map_congr_left fun d hd => ho.place_eq (hlt d hd)
  have hopens : r.frontier.opens.map f'.place = r.frontier.opens.map r.frontier.place :=
    List.map_congr_left fun d hd => ho.place_eq (h.lt d (List.mem_append_left _ hd))
  obtain ⟨m, hm, hmc⟩ := h.depth_done i hi
  refine ⟨⟨?_, ?_, ?_, ?_, ?_, ?_, ?_, ?_⟩, ⟨hdone, ?_, ?_, ?_⟩, ?_⟩
  · -- node
    intro k hk
    rcases ho.node_cases hk with ⟨hlt, hn⟩ | hn
    · rw [Frontier.place_of_node hn, Frontier.cost_of_node hn, hn]
      exact h.node k hlt
    · rw [Frontier.place_of_node hn, Frontier.cost_of_node hn, hn]
      rfl
  · -- linked
    intro k hk
    rcases ho.node_cases hk with ⟨hlt, hn⟩ | hn
    · rw [hn]
      exact (h.linked k hlt).congr hdone
    · rw [hn]
      refine Or.inr ⟨i, hi, rfl, ?_, hfree, ?_⟩
      · rw [Frontier.place_of_node (hdone i hi)]; exact hs
      · rw [Frontier.cost_of_node (hdone i hi)]; rfl
  · -- aligned
    intro k hk
    rcases ho.node_cases hk with ⟨hlt, hn⟩ | hn
    · rw [Frontier.place_of_node hn]
      exact h.aligned k hlt
    · rw [Frontier.place_of_node hn]
      exact (h.aligned i (hlt i hi)).step hs
  · -- depth
    intro k hk
    rcases ho.node_cases hk with ⟨hlt, hn⟩ | hn
    · rw [Frontier.cost_of_node hn]
      exact h.depth k hlt
    · refine ⟨m + 1, hm, ?_⟩
      rw [Frontier.cost_of_node hn, Int.natCast_succ, Int.add_mul, Int.one_mul, ← hmc]
      rfl
  · -- depth of the expanded
    intro d hd
    rw [Frontier.cost_of_node (hdone d hd)]
    exact h.depth_done d hd
  · -- listed nodes have been made
    intro k hk
    rw [ho.size]
    rcases ho.opens with ⟨-, -, -, heq, -⟩ | ⟨-, heq⟩
    · rw [heq] at hk
      have := h.lt k hk
      omega
    · rw [heq, List.append_assoc, List.mem_append, List.mem_append, List.mem_singleton,
        or_left_comm, ← List.mem_append] at hk
      rcases hk with rfl | hk
      · omega
      · have := h.lt k hk
        omega
  · -- no two listed nodes share a place
    rcases ho.opens with ⟨-, -, -, heq, -⟩ | ⟨hfresh, heq⟩
    · rw [heq, List.map_append, hmap, hopens, ← List.map_append]
      exact h.nodup
    · have hperm : (f'.opens ++ done).Perm (r.frontier.nodes.size :: (r.frontier.opens ++ done)) := by
        rw [heq, List.append_assoc]
        exact List.perm_middle
      rw [(hperm.map _).nodup_iff, List.map_cons, Frontier.place_of_node ho.last, List.map_append,
        hmap, hopens, List.nodup_cons, ← List.map_append]
      refine ⟨?_, h.nodup⟩
      rw [List.map_append, List.mem_append]
      rintro (hm | hm)
      · obtain ⟨j, hj, hp⟩ := List.mem_map.1 hm
        exact hfresh j hj hp
      · exact hnew hm
  · -- closed
    intro p
    rw [hmap]
    exact h.closed p
  · exact fun k hk => ho.place_eq (h.lt k (List.mem_append_left _ hk))
  · exact fun k hk => ho.cost_le (h.lt k (List.mem_append_left _ hk))
  · exact fun k hk => Or.inl (ho.opens_subset hk)
  · -- the neighbour is listed
    obtain ⟨j, hj, hp, hc⟩ := ho.exists_open
    refine ⟨j, hp, Or.inr ⟨hj, ?_⟩⟩
    rw [Frontier.cost_of_node (hdone i hi)]
    exact hc

end Offer

/-! ### Visiting and expanding -/

/-- **A visit** of a neighbour of an expanded node. -/
theorem visit_spec (h : Sound t s g r done) (hi : i ∈ done)
    (hs : t.Step (r.frontier.place i) q) :
    ∃ r', (t.problem g).visit i r (.int q.1, .int q.2) = .ok r' ∧ Sound t s g r' done ∧
      Grows done r r' ∧ (t.Free q → Covered t r' done i q) := by
  unfold Problem.visit
  simp only
  by_cases hc : q ∈ done.map r.frontier.place
  · rw [if_pos ((h.isClosed_iff q).2 hc)]
    obtain ⟨j, hj, hp⟩ := List.mem_map.1 hc
    exact ⟨r, rfl, h, .refl _ _, fun _ => ⟨j, hp, Or.inl hj⟩⟩
  · rw [if_neg fun hh => hc ((h.isClosed_iff q).1 hh), Terrain.isFree_problem]
    by_cases hfree : t.Free q
    · have hn := h.node i (h.lt i (List.mem_append_right _ hi))
      have hcost : (r.frontier.node i).cost.add (t.problem g).cell =
          .ok (.int (r.frontier.cost i + t.cell)) := by
        rw [hn]; rfl
      obtain ⟨h1, h2, h3⟩ := h.offer hi hs hfree hc
        (Frontier.offered_offer h.whole (Node.whole_nodeFor ..))
      refine ⟨_, ?_, h1, h2, fun _ => h3⟩
      simp only [hfree, decide_true, hcost, bind, Except.bind, if_true, Terrain.nodeAt_problem]
      rfl
    · exact ⟨r, by simp [hfree, bind, Except.bind, pure, Except.pure], h, .refl _ _,
        fun hf => absurd hf hfree⟩

/-- Visits of several neighbours of an expanded node. -/
theorem visits_spec : ∀ (l : List Place) (r : Search), Sound t s g r done → i ∈ done →
    (∀ q ∈ l, t.Step (r.frontier.place i) q) →
    ∃ r', (l.map fun q : Place => (Number.int q.1, Number.int q.2)).foldlM
        ((t.problem g).visit i) r = .ok r' ∧ Sound t s g r' done ∧ Grows done r r' ∧
      ∀ q ∈ l, t.Free q → Covered t r' done i q
  | [], r, h, _, _ => ⟨r, rfl, h, .refl _ _, by simp⟩
  | q :: l, r, h, hi, hl => by
    obtain ⟨r₁, e₁, h₁, g₁, c₁⟩ := visit_spec h hi (hl q List.mem_cons_self)
    obtain ⟨r₂, e₂, h₂, g₂, c₂⟩ := visits_spec l r₁ h₁ hi fun q hq => by
      rw [g₁.place_done hi]; exact hl q (List.mem_cons_of_mem _ hq)
    refine ⟨r₂, ?_, h₂, g₁.trans g₂, ?_⟩
    · rw [List.map_cons, List.foldlM_cons, e₁]; exact e₂
    · intro q' hq' hf
      rcases List.mem_cons.1 hq' with rfl | hq'
      · exact (c₁ hf).grow g₂ hi
      · exact c₂ q' hq' hf

/-- An open node is taken out and its position is closed. -/
theorem Sound.close (h : Sound t s g r done) (hi : i ∈ r.frontier.opens) :
    ∃ f, r.frontier.remove i = .ok f ∧
      Sound t s g ⟨f, r.closed.insert (r.frontier.place i).key⟩ (i :: done) ∧
      Grows (i :: done) r ⟨f, r.closed.insert (r.frontier.place i).key⟩ := by
  obtain ⟨f, hf, hnodes, hopens⟩ := Frontier.remove_of_mem hi
  have hnode : f.node = r.frontier.node := by unfold Frontier.node; rw [hnodes]
  have hplace : f.place = r.frontier.place := by unfold Frontier.place; rw [hnode]
  have hcost : f.cost = r.frontier.cost := by unfold Frontier.cost; rw [hnode]
  have hperm : (f.opens ++ i :: done).Perm (r.frontier.opens ++ done) := by
    rw [hopens]
    exact List.perm_middle.trans
      (((List.perm_cons_erase hi).symm.append_right done))
  refine ⟨f, hf, ⟨?_, ?_, ?_, ?_, ?_, ?_, ?_, ?_⟩, ⟨?_, ?_, ?_, ?_⟩⟩
  · intro k hk
    rw [hplace, hcost, hnode]
    exact h.node k (hnodes ▸ hk)
  · intro k hk
    rw [hnode]
    refine (h.linked k (hnodes ▸ hk)).imp_right ?_
    rintro ⟨p, hp, h1, h2, h3, h4⟩
    exact ⟨p, List.mem_cons_of_mem _ hp, h1, hplace ▸ h2, h3, hcost ▸ h4⟩
  · intro k hk
    rw [hplace]
    exact h.aligned k (hnodes ▸ hk)
  · intro k hk
    rw [hcost]
    obtain ⟨n, hn, hc⟩ := h.depth k (hnodes ▸ hk)
    exact ⟨n, Nat.le_succ_of_le hn, hc⟩
  · intro d hd
    rw [hcost]
    rcases List.mem_cons.1 hd with rfl | hd
    · obtain ⟨n, hn, hc⟩ := h.depth d (h.lt d (List.mem_append_left _ hi))
      exact ⟨n, Nat.lt_succ_of_le hn, hc⟩
    · obtain ⟨n, hn, hc⟩ := h.depth_done d hd
      exact ⟨n, Nat.lt_succ_of_lt hn, hc⟩
  · intro k hk
    rw [hnodes]
    exact h.lt k (hperm.mem_iff.1 hk)
  · rw [hplace, (hperm.map _).nodup_iff]
    exact h.nodup
  · intro p
    rw [hplace, List.map_cons, List.mem_cons, ← h.closed p, Std.HashSet.contains_insert,
      Bool.or_eq_true, beq_iff_eq, Place.key_inj, eq_comm]
  · exact fun d _ => congrFun hnode d
  · exact fun k _ => congrFun hplace k
  · exact fun k _ => Int.le_of_eq (congrFun hcost k)
  · intro k hk
    rcases eq_or_ne k i with rfl | hne
    · exact Or.inr List.mem_cons_self
    · exact Or.inl (hopens ▸ (List.mem_erase_of_ne hne).2 hk)

/-- **An expansion** of an open node: all free neighbours are listed afterwards. -/
theorem expand_spec (h : Sound t s g r done) (hi : i ∈ r.frontier.opens) :
    ∃ r', (t.problem g).expand r i = .ok r' ∧ Sound t s g r' (i :: done) ∧
      Grows (i :: done) r r' ∧
      ∀ q, t.Step (r.frontier.place i) q → t.Free q → Covered t r' (i :: done) i q := by
  obtain ⟨f, hf, h₀, g₀⟩ := h.close hi
  obtain ⟨r', e', h', g', c'⟩ := visits_spec (t.around (r.frontier.place i)) _ h₀
    List.mem_cons_self fun q hq => by
      rw [g₀.place_done List.mem_cons_self]; exact Terrain.mem_around.1 hq
  refine ⟨r', ?_, h', g₀.trans g', fun q hq => c' q (Terrain.mem_around.2 hq)⟩
  have hn := h.node i (h.lt i (List.mem_append_left _ hi))
  unfold Problem.expand
  rw [hf, hn]
  exact e'

/-- **The search before its first round**: only the root is open. -/
theorem sound_start (t : Terrain) (s g : Place) :
    ∃ r, (t.problem g).start (.int s.1) (.int s.2) = .ok r ∧ Sound t s g r [] ∧
      r.frontier.opens = [0] ∧ r.frontier.place 0 = s ∧ r.frontier.cost 0 = 0 := by
  have hempty : Frontier.empty.Whole := ⟨fun _ => rfl, fun i hi => by cases hi⟩
  have ho := Frontier.offered_offer hempty (Node.whole_nodeFor g s 0 none)
  have hopens : (Frontier.empty.offer (nodeFor g s 0 none)).opens = [0] := by
    rcases ho.opens with ⟨j, hj, -⟩ | ⟨-, heq⟩
    · cases hj
    · exact heq
  -- there is only the root
  have hroot : ∀ i < (Frontier.empty.offer (nodeFor g s 0 none)).nodes.size,
      (Frontier.empty.offer (nodeFor g s 0 none)).node i = nodeFor g s 0 none := by
    intro i hi
    rcases ho.node_cases hi with ⟨hlt, -⟩ | hn
    · exact absurd hlt (Nat.not_lt_zero i)
    · exact hn
  have hpos : 0 < (Frontier.empty.offer (nodeFor g s 0 none)).nodes.size := by
    rw [ho.size]; exact Nat.succ_pos _
  have hplace := Frontier.place_of_node (hroot 0 hpos)
  have hcost := Frontier.cost_of_node (hroot 0 hpos)
  refine ⟨⟨Frontier.empty.offer (nodeFor g s 0 none), ∅⟩, rfl, ⟨?_, ?_, ?_, ?_, ?_, ?_, ?_, ?_⟩, hopens,
    hplace, hcost⟩
  · intro i hi
    rw [Frontier.place_of_node (hroot i hi), Frontier.cost_of_node (hroot i hi), hroot i hi]
    rfl
  · intro i hi
    rw [hroot i hi]
    exact Or.inl ⟨rfl, rfl, rfl⟩
  · intro i hi
    rw [Frontier.place_of_node (hroot i hi)]
    exact .refl s
  · intro i hi
    exact ⟨0, Nat.le_refl _, by rw [Frontier.cost_of_node (hroot i hi)]; simp [nodeFor]⟩
  · exact fun i hi => by cases hi
  · intro i hi
    rw [hopens, List.append_nil, List.mem_singleton] at hi
    exact hi ▸ hpos
  · rw [hopens]
    exact List.nodup_singleton _
  · intro p
    simp

end Search

end ErCanvas.Grid
