import ErCanvas.Proofs.Grid.Route

/-! # The way back along the parents

A frontier by itself accepts any parents, a node of its own way back among them. A search builds no such
circle: what it relaxes is open and what it takes for a parent is expanded, and costs grow along the links.

* `Frontier.node_offer_of_notMem`: an offer changes no node but an open one.
* `Frontier.Lineage`: the nodes from one back along the parents to one that has none; `ancestry_eq`: how they
  are gathered.
* `Search.Descends`: what the links from a node say of its cost.
* `Sound.exists_descends`: every open and every expanded node descends from the start.
* `Terrain.parents_lead_back`: all rounds of all searches, and the node that is accepted. -/

namespace ErCanvas.Grid

namespace Frontier

variable {f : Frontier} {n : Node} {i j k : ℕ} {chain : List ℕ}

/-! ### Nodes that are not open -/

theorem node_relax_of_ne (h : k ≠ j) (n : Node) : (f.relax j n).node k = f.node k := by
  unfold relax
  split
  · unfold node
    rw [Array.getD_eq_getD_getElem?, Array.getElem?_modify, if_neg (Ne.symm h),
      Array.getD_eq_getD_getElem?]
  · rfl

/-- **Nothing but an open node is relaxed.** -/
theorem node_offer_of_notMem (hk : k ∉ f.opens) (hlt : k < f.nodes.size) (n : Node) :
    (f.offer n).node k = f.node k := by
  unfold offer make pushOrRelax
  dsimp only
  split
  · exact node_push_lt hlt
  · rename_i j hj
    have hmem : j ∈ f.opens := Array.mem_toList_iff.2 (Array.mem_of_find?_eq_some hj)
    have hne : k ≠ j := fun h => hk (h.symm ▸ hmem)
    exact (node_relax_of_ne hne _).trans (node_push_lt hlt)

/-! ### Lineages -/

/-- The nodes of `chain` are those from `i` back along the parents: `i` first, behind every node its parent,
and a node without one at the end. -/
inductive Lineage (f : Frontier) : ℕ → List ℕ → Prop where
  | root {i : ℕ} (h : (f.node i).parent = none) : Lineage f i [i]
  | link {i p : ℕ} {chain : List ℕ} (h : (f.node i).parent = some p) (hp : Lineage f p chain) :
      Lineage f i (i :: chain)

theorem Lineage.exists_cons (h : f.Lineage i chain) : ∃ rest, chain = i :: rest := by
  cases h with
  | root h => exact ⟨[], rfl⟩
  | link h hp => exact ⟨_, rfl⟩

/-- **A lineage is gathered** in as many steps as it has nodes, and no step more changes anything. -/
theorem Lineage.ancestry_eq (h : f.Lineage i chain) {fuel : ℕ} (hfuel : chain.length ≤ fuel) :
    f.ancestry fuel i = chain.map f.node := by
  induction h generalizing fuel with
  | root h =>
    cases fuel with
    | zero => cases hfuel
    | succ fuel => simp only [ancestry, h, List.map_singleton]
  | link h hp ih =>
    cases fuel with
    | zero => cases hfuel
    | succ fuel => simp only [ancestry, h, ih (Nat.le_of_succ_le_succ hfuel), List.map_cons]

end Frontier

namespace Search

variable {t : Terrain} {s g : Place} {r : Search} {done chain : List ℕ} {i : ℕ}

/-- **The descent of a node from the start** `s` in a search for `g`. The cost of the node is a cell for every
link to a parent, and its total is the cost with the distance to the goal. The parents have been expanded, every
link is one step, and the last one leads to the start. -/
structure Descends (t : Terrain) (s g : Place) (r : Search) (done : List ℕ) (i : ℕ) (chain : List ℕ) :
    Prop where
  lineage : r.frontier.Lineage i chain
  node : r.frontier.node i = Terrain.nodeFor g (r.frontier.place i) ((chain.length - 1 : ℕ) * t.cell)
    (r.frontier.node i).parent
  expanded : ∀ p ∈ chain.tail, p ∈ done
  steps : (chain.map r.frontier.place).IsChain t.Step
  root : (chain.map r.frontier.place).getLast? = some s

/-- **Every listed node descends from the start**, and its lineage has a link for every cell of its cost. -/
theorem Sound.exists_descends (h : Sound t s g r done) (hc : 0 < t.cell) {n i : ℕ}
    (hi : i ∈ r.frontier.opens ++ done) (hcost : r.frontier.cost i = n * t.cell) :
    ∃ chain, chain.length = n + 1 ∧ Descends t s g r done i chain := by
  have hnode := h.node i (h.lt i hi)
  rw [hcost] at hnode
  induction n generalizing i with
  | zero =>
    rcases h.linked i (h.lt i hi) with ⟨hparent, hplace, -⟩ | ⟨k, hk, -, -, -, hlink⟩
    · exact ⟨[i], rfl, .root hparent, hnode, nofun, .singleton _, congrArg some hplace⟩
    · -- a node that costs nothing is linked to no other
      obtain ⟨m, -, hm⟩ := h.depth_done k hk
      have hlink : r.frontier.cost i = r.frontier.cost k + t.cell := hlink
      have hpos := mul_nonneg (Int.natCast_nonneg m) hc.le
      rw [hcost, hm] at hlink
      omega
  | succ n ih =>
    rcases h.linked i (h.lt i hi) with ⟨-, -, hzero⟩ | ⟨k, hk, hparent, hstep, -, hlink⟩
    · -- nor does the root cost anything
      have hzero : r.frontier.cost i = 0 := hzero
      have hpos : (0 : ℤ) < (n + 1 : ℕ) * t.cell := mul_pos (Int.natCast_pos.2 n.succ_pos) hc
      omega
    · have hlink : r.frontier.cost i = r.frontier.cost k + t.cell := hlink
      have hlisted := List.mem_append_right r.frontier.opens hk
      have hck : r.frontier.cost k = n * t.cell := by
        rw [hcost, Int.natCast_succ, add_mul, one_mul] at hlink
        omega
      obtain ⟨chain, hlength, hd⟩ := ih hlisted hck (hck ▸ h.node k (h.lt k hlisted))
      obtain ⟨rest, rfl⟩ := hd.lineage.exists_cons
      refine ⟨i :: k :: rest, congrArg (· + 1) hlength, .link hparent hd.lineage, ?_, ?_, ?_, ?_⟩
      · rw [List.length_cons, hlength]
        exact hnode
      · exact List.forall_mem_cons.2 ⟨hk, hd.expanded⟩
      · exact List.isChain_cons_cons.2 ⟨hstep.symm, hd.steps⟩
      · exact hd.root

/-- The lineage of a listed node has no more nodes than there are. -/
theorem Sound.exists_descends_le (h : Sound t s g r done) (hc : 0 < t.cell)
    (hi : i ∈ r.frontier.opens ++ done) :
    ∃ chain, chain.length ≤ r.frontier.nodes.size ∧ Descends t s g r done i chain := by
  have hsize := h.length_listed_le
  rw [List.length_append] at hsize
  rcases List.mem_append.1 hi with ho | hd
  · obtain ⟨n, hn, hcost⟩ := h.depth i (h.lt i hi)
    obtain ⟨chain, hlength, hchain⟩ := h.exists_descends hc hi hcost
    have := List.length_pos_of_mem ho
    exact ⟨chain, by omega, hchain⟩
  · obtain ⟨n, hn, hcost⟩ := h.depth_done i hd
    obtain ⟨chain, hlength, hchain⟩ := h.exists_descends hc hi hcost
    exact ⟨chain, by omega, hchain⟩

/-- **The way back from a node that descends from the start** is gathered whole, whatever steps are allowed
beyond those that are needed, and has a point for every cell of the cost and one more. -/
theorem Descends.trail_eq (h : Descends t s g r done i chain) (hc : 0 < t.cell)
    (hlength : chain.length ≤ r.frontier.nodes.size) :
    r.frontier.trail i = (chain.map r.frontier.node).reverse ∧
      ((pointsOf (r.frontier.trail i)).length : ℤ) = r.frontier.cost i / t.cell + 1 := by
  have htrail : r.frontier.trail i = (chain.map r.frontier.node).reverse := by
    rw [Frontier.trail, h.lineage.ancestry_eq hlength]
  have hcost : r.frontier.cost i = (chain.length - 1 : ℕ) * t.cell := Frontier.cost_of_node h.node
  obtain ⟨rest, rfl⟩ := h.lineage.exists_cons
  refine ⟨htrail, ?_⟩
  rw [htrail, hcost, Int.mul_ediv_cancel _ hc.ne', pointsOf, List.length_map, List.length_reverse,
    List.length_map, List.length_cons]
  rfl

end Search

namespace Terrain

open Search

variable {t : Terrain} {start finish : Point}

/-- **Parents always lead back to the start.** In every round of every search between points that can be
snapped, the open and the expanded nodes descend from the snapped start. No offer of a node and no round
changes an expanded node. From the node at which a search succeeds, the way back is gathered whole, in any
number of steps that is not too small, and has a point for every cell of the cost and one more. -/
theorem parents_lead_back (hc : 0 < t.cell) (hs : t.Accepts start) (hf : t.Accepts finish) :
    ∃ s g, t.Snaps start s ∧ t.Snaps finish g ∧
      (∀ r done, Explores t s g r done →
        (∀ i ∈ r.frontier.opens ++ done, ∃ chain, Descends t s g r done i chain) ∧
        (∀ n, ∀ d ∈ done, (r.frontier.offer n).node d = r.frontier.node d) ∧
        ∀ i r', r.frontier.best? = some i → (t.problem g).step r = .ok (.goOn r') →
          ∀ d ∈ i :: done, r'.frontier.node d = r.frontier.node d) ∧
      ∀ f i, t.solveBetween start finish = .ok (.reached f i) →
        ∃ r done chain, Explores t s g r done ∧ r.frontier = f ∧ Descends t s g r done i chain ∧
          (∀ fuel ≥ chain.length, f.ancestry fuel i = chain.map f.node) ∧
          f.trail i = (chain.map f.node).reverse ∧
          ((pointsOf (f.trail i)).length : ℤ) = f.cost i / t.cell + 1 := by
  obtain ⟨s, hs, -⟩ := hs.exists_snaps
  obtain ⟨g, hg, -⟩ := hf.exists_snaps
  refine ⟨s, g, hs, hg, fun r done hr => ⟨fun i hi => ?_, fun n d hd => ?_, fun i r' hb hstep => ?_⟩,
    fun f i hreached => ?_⟩
  · obtain ⟨chain, -, hchain⟩ := hr.sound.exists_descends_le hc hi
    exact ⟨chain, hchain⟩
  · exact Frontier.node_offer_of_notMem (hr.sound.not_open_of_done hd)
      (hr.sound.lt d (List.mem_append_right _ hd)) n
  · exact (goOn_spec hr.sound hb hstep).2.2.1.fixed
  · obtain ⟨v, hv, hends⟩ := solve_spec t s g
    rw [← solveBetween_eq hs hg, hreached] at hv
    obtain rfl := Except.ok.inj hv
    obtain ⟨r, done, hr, rfl, hb, -⟩ := hends
    obtain ⟨chain, hlength, hchain⟩ :=
      hr.sound.exists_descends_le hc (List.mem_append_left _ (best?_mem hr.sound hb))
    obtain ⟨htrail, hpoints⟩ := hchain.trail_eq hc hlength
    exact ⟨r, done, chain, hr, rfl, hchain, fun _ => hchain.lineage.ancestry_eq, htrail, hpoints⟩

theorem parents_lead_back_walled : ∃ f i chain,
    walled.solveBetween ⟨.int 23, .int 71⟩ ⟨.int 197, .int 64⟩ = .ok (.reached f i) ∧ f.Lineage i chain ∧
      (∀ fuel ≥ chain.length, f.ancestry fuel i = chain.map f.node) ∧
      ((pointsOf (f.trail i)).length : ℤ) = f.cost i / 20 + 1 := by
  obtain ⟨s, g, hs, hg, -, h⟩ :=
    parents_lead_back (by decide : 0 < walled.cell) accepts_walled_start accepts_walled_finish
  obtain ⟨rfl, rfl⟩ := snaps_walled hs hg
  obtain ⟨s, g, hs, hg, hcases⟩ :=
    route_cases (by decide : 0 < walled.cell) accepts_walled_start accepts_walled_finish
  obtain ⟨rfl, rfl⟩ := snaps_walled hs hg
  rcases hcases with ⟨f, i, -, hreached, -⟩ | ⟨hno, -⟩
  · obtain ⟨r, done, chain, -, rfl, hchain, hfuel, -, hpoints⟩ := h f i hreached
    exact ⟨_, i, chain, hreached, hchain.lineage, hfuel, hpoints⟩
  · exact absurd ⟨_, walk_walled⟩ hno

end Terrain

end ErCanvas.Grid
