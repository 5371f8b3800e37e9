import Mathlib.Data.List.Basic
import ErCanvas.Proofs.Grid.Terrain

/-! # The frontier with whole numbers

What the operations of a frontier do when all numbers of its nodes are whole.

* `best?_eq_some`: the best node is open and no open node has a smaller total.
* `remove_of_mem`: an open node can be taken out, and nothing else changes.
* `offered_offer`: a new node is opened at a position that is not open; at an open position it
  replaces the data of the node there if it is cheaper, and nothing else changes. -/

namespace ErCanvas

/-- The whole number, zero for a floating-point one. -/
def Number.toInt : Number → ℤ
  | .int n => n
  | .float _ => 0

@[simp] theorem Number.toInt_int (n : ℤ) : (Number.int n).toInt = n := rfl

namespace Grid

namespace Node

def place (n : Node) : Place := (n.x.toInt, n.y.toInt)

/-- All numbers of the node are whole. -/
def Whole (n : Node) : Prop :=
  n = ⟨.int n.x.toInt, .int n.y.toInt, .int n.cost.toInt, .int n.total.toInt, n.parent⟩

theorem whole_default : (default : Node).Whole := rfl

theorem whole_nodeFor (g p : Place) (cost : ℤ) (parent : Option ℕ) :
    (Terrain.nodeFor g p cost parent).Whole := rfl

@[simp] theorem place_nodeFor (g p : Place) (cost : ℤ) (parent : Option ℕ) :
    (Terrain.nodeFor g p cost parent).place = p := rfl

theorem isAt_iff {n : Node} (h : n.Whole) {p : Place} :
    n.isAt (.int p.1) (.int p.2) = true ↔ n.place = p := by
  rw [h]
  simp [isAt, place, Prod.ext_iff]

end Node

namespace Frontier

def place (f : Frontier) (i : ℕ) : Place := (f.node i).place

def cost (f : Frontier) (i : ℕ) : ℤ := (f.node i).cost.toInt

def total (f : Frontier) (i : ℕ) : ℤ := (f.node i).total.toInt

/-- The places of the open nodes in the order of their discovery. -/
def opens (f : Frontier) : List ℕ := f.opened.toList

/-- All numbers are whole, and every open node has been made. -/
structure Whole (f : Frontier) : Prop where
  node : ∀ i, (f.node i).Whole
  lt : ∀ i ∈ f.opens, i < f.nodes.size

variable {f f' : Frontier} {n : Node} {i j k : ℕ}

/-! ### Nodes -/

theorem place_of_node (h : f.node i = n) : f.place i = n.place := congrArg Node.place h

theorem cost_of_node (h : f.node i = n) : f.cost i = n.cost.toInt :=
  congrArg (fun n => n.cost.toInt) h

theorem node_push_lt (h : k < f.nodes.size) :
    (⟨f.nodes.push n, f.opened⟩ : Frontier).node k = f.node k := by
  unfold node
  rw [Array.getD_eq_getD_getElem?, Array.getD_eq_getD_getElem?, Array.getElem?_push,
    if_neg (by omega)]

theorem node_push_size : (⟨f.nodes.push n, f.opened⟩ : Frontier).node f.nodes.size = n := by
  unfold node
  rw [Array.getD_eq_getD_getElem?, Array.getElem?_push_size]
  rfl

theorem node_of_size_le (h : f.nodes.size ≤ k) : f.node k = default := by
  unfold node
  rw [Array.getD_eq_getD_getElem?, Array.getElem?_eq_none h]
  rfl

theorem node_modify (hj : j < f.nodes.size) (g : Node → Node) (k : ℕ) :
    (⟨f.nodes.modify j g, f.opened⟩ : Frontier).node k =
      if k = j then g (f.node j) else f.node k := by
  unfold node
  rw [Array.getD_eq_getD_getElem?, Array.getElem?_modify]
  by_cases hk : k = j
  · subst hk
    simp [hj]
  · rw [if_neg (Ne.symm hk), if_neg hk, Array.getD_eq_getD_getElem?]

theorem whole_push (h : ∀ i, (f.node i).Whole) (hn : n.Whole) (k : ℕ) :
    ((⟨f.nodes.push n, f.opened⟩ : Frontier).node k).Whole := by
  rcases Nat.lt_trichotomy k f.nodes.size with hk | rfl | hk
  · rw [node_push_lt hk]; exact h k
  · rw [node_push_size]; exact hn
  · rw [node_of_size_le]
    · exact Node.whole_default
    · rw [Array.size_push]; exact hk

/-! ### The open node at a place -/

theorem find?_eq_some (hw : ∀ i, (f.node i).Whole) {p : Place}
    (h : f.find? (.int p.1) (.int p.2) = some j) : j ∈ f.opens ∧ f.place j = p := by
  have hp := Array.find?_some h
  exact ⟨Array.mem_toList_iff.2 (Array.mem_of_find?_eq_some h), (Node.isAt_iff (hw j)).1 hp⟩

theorem find?_eq_none (hw : ∀ i, (f.node i).Whole) {p : Place}
    (h : f.find? (.int p.1) (.int p.2) = none) : ∀ j ∈ f.opens, f.place j ≠ p := by
  intro j hj hp
  exact Array.find?_eq_none.1 h j (Array.mem_toList_iff.1 hj) ((Node.isAt_iff (hw j)).2 hp)

/-! ### The best open node -/

theorem better_cases (hw : ∀ i, (f.node i).Whole) (i j : ℕ) :
    f.better i j = j ∧ f.total j < f.total i ∨ f.better i j = i ∧ f.total i ≤ f.total j := by
  have h : (f.node j).total.lt (f.node i).total = decide (f.total j < f.total i) := by
    rw [hw i, hw j]; rfl
  unfold better
  rw [h]
  by_cases hlt : f.total j < f.total i
  · exact Or.inl ⟨by simp [hlt], hlt⟩
  · exact Or.inr ⟨by simp [hlt], Int.not_lt.1 hlt⟩

theorem foldl_better (hw : ∀ i, (f.node i).Whole) : ∀ (l : List ℕ) (m : ℕ),
    (l.foldl f.better m = m ∨ l.foldl f.better m ∈ l) ∧ f.total (l.foldl f.better m) ≤ f.total m ∧
      ∀ j ∈ l, f.total (l.foldl f.better m) ≤ f.total j
  | [], m => by simp
  | a :: l, m => by
    obtain ⟨h1, h2, h3⟩ := foldl_better hw l (f.better m a)
    rw [List.foldl_cons]
    rcases better_cases hw m a with ⟨hb, hlt⟩ | ⟨hb, hle⟩
    · rw [hb] at h1 h2 h3 ⊢
      refine ⟨Or.inr ?_, by omega, ?_⟩
      · rcases h1 with h1 | h1
        · rw [h1]; exact List.mem_cons_self
        · exact List.mem_cons_of_mem _ h1
      · intro j hj
        rcases List.mem_cons.1 hj with rfl | hj
        · exact h2
        · exact h3 j hj
    · rw [hb] at h1 h2 h3 ⊢
      refine ⟨h1.imp_right (List.mem_cons_of_mem _), h2, ?_⟩
      intro j hj
      rcases List.mem_cons.1 hj with rfl | hj
      · omega
      · exact h3 j hj

/-- **The best open node**: it is open, and no open node has a smaller total. -/
theorem best?_eq_some (hw : ∀ i, (f.node i).Whole) (h : f.best? = some i) :
    i ∈ f.opens ∧ ∀ j ∈ f.opens, f.total i ≤ f.total j := by
  unfold best? at h
  split at h
  · cases h
  · rename_i a ha
    have hmem : a ∈ f.opens := Array.mem_toList_iff.2 (Array.mem_of_getElem? ha)
    rw [← Array.foldl_toList, Option.some.injEq] at h
    obtain ⟨h1, -, h3⟩ := foldl_better hw f.opens a
    subst h
    refine ⟨?_, h3⟩
    rcases h1 with h1 | h1
    · exact h1.symm ▸ hmem
    · exact h1

theorem best?_eq_none (h : f.best? = none) : f.opens = [] := by
  unfold best? at h
  split at h
  · rename_i ha
    simpa [opens] using ha
  · cases h

/-! ### Taking an open node out -/

theorem remove_of_mem (h : i ∈ f.opens) :
    ∃ f', f.remove i = .ok f' ∧ f'.nodes = f.nodes ∧ f'.opens = f.opens.erase i := by
  unfold remove
  split
  · rename_i k hk
    refine ⟨_, rfl, rfl, ?_⟩
    have hidx : f.opens.idxOf i = k := by
      rw [show f.opened = f.opens.toArray from Array.toArray_toList.symm, List.findIdx?_toArray] at hk
      exact (List.findIdx?_eq_some_iff_findIdx_eq.1 hk).2
    rw [opens, Array.toList_eraseIdxIfInBounds, ← hidx]
    exact (List.erase_eq_eraseIdx_of_idxOf rfl).symm
  · rename_i hk
    have := Array.findIdx?_eq_none_iff.1 hk i (Array.mem_toList_iff.1 h)
    simp at this

/-! ### Offering a node -/

/-- The frontier with one more node, which is opened or lowers the cost of the open node at its
place. -/
def offer (f : Frontier) (n : Node) : Frontier := ((f.make n).1.pushOrRelax (f.make n).2).1

/-- What becomes of a frontier to which a node has been offered. -/
structure Offered (f f' : Frontier) (n : Node) : Prop where
  size : f'.nodes.size = f.nodes.size + 1
  node : ∀ k < f.nodes.size, f'.node k = f.node k ∨
    k ∈ f.opens ∧ f.place k = n.place ∧ n.cost.toInt < f.cost k ∧ f'.node k = n
  last : f'.node f.nodes.size = n
  opens : (∃ j ∈ f.opens, f'.place j = n.place ∧ f'.opens = f.opens ∧ f'.cost j ≤ n.cost.toInt) ∨
    (∀ j ∈ f.opens, f.place j ≠ n.place) ∧ f'.opens = f.opens ++ [f.nodes.size]

theorem size_relax : (f.relax j n).nodes.size = f.nodes.size := by
  unfold relax; split <;> simp

theorem opened_relax : (f.relax j n).opened = f.opened := by
  unfold relax; split <;> rfl

theorem node_relax (hn : n.Whole) (hw : ∀ i, (f.node i).Whole) (hp : f.place j = n.place)
    (hj : j < f.nodes.size) (k : ℕ) :
    (f.relax j n).node k = if k = j ∧ n.cost.toInt < f.cost j then n else f.node k := by
  have hlt : n.cost.lt (f.node j).cost = decide (n.cost.toInt < f.cost j) := by
    rw [hn, hw j]; rfl
  have hmod : (⟨n.x, n.y, n.cost, n.total, n.parent⟩ : Node) =
      { f.node j with cost := n.cost, total := n.total, parent := n.parent } := by
    obtain ⟨hx, hy⟩ := Prod.ext_iff.1 hp
    rw [hw j, hn]
    simp only [place, Node.place] at hx hy
    simp [hx, hy]
  unfold relax
  rw [hlt]
  by_cases hc : n.cost.toInt < f.cost j
  · rw [decide_eq_true hc, if_pos rfl, node_modify hj]
    simp only [hc, and_true, ← hmod]
  · simp [hc]

theorem offered_offer (hf : f.Whole) (hn : n.Whole) : Offered f (f.offer n) n := by
  have hw := whole_push (f := f) hf.node hn
  have hold {j : ℕ} (hj : j ∈ f.opens) :
      (⟨f.nodes.push n, f.opened⟩ : Frontier).place j = f.place j := by
    unfold place; rw [node_push_lt (hf.lt j hj)]
  have hx : n.x = .int n.place.1 := by rw [hn]; rfl
  have hy : n.y = .int n.place.2 := by rw [hn]; rfl
  unfold offer make pushOrRelax
  simp only
  rw [node_push_size, hx, hy]
  split
  · rename_i h
    refine ⟨by simp, fun k hk => Or.inl (node_push_lt hk), node_push_size, Or.inr ⟨?_, ?_⟩⟩
    · intro j hj
      rw [← hold hj]
      exact find?_eq_none hw h j hj
    · simp [opens]
  · rename_i j h
    obtain ⟨hj, hp⟩ := find?_eq_some hw h
    have hlt := hf.lt j hj
    have hnode := node_relax hn hw hp (by rw [Array.size_push]; omega)
    have hcost : (⟨f.nodes.push n, f.opened⟩ : Frontier).cost j = f.cost j := by
      unfold cost; rw [node_push_lt hlt]
    rw [hcost] at hnode
    rw [hold hj] at hp
    refine ⟨by rw [size_relax, Array.size_push], fun k hk => ?_, ?_, Or.inl ⟨j, hj, ?_, ?_, ?_⟩⟩
    · rw [hnode k, node_push_lt hk]
      split
      · rename_i hkj
        exact Or.inr ⟨hkj.1 ▸ hj, hkj.1 ▸ hp, hkj.1 ▸ hkj.2, rfl⟩
      · exact Or.inl rfl
    · rw [hnode, node_push_size, ite_self]
    · unfold place
      rw [hnode j, node_push_lt hlt]
      split
      · rfl
      · exact hp
    · rw [opens, opened_relax]; rfl
    · unfold cost
      rw [hnode j, node_push_lt hlt]
      split
      · exact Int.le_refl _
      · rename_i hle
        exact Int.not_lt.1 fun h => hle ⟨rfl, h⟩

namespace Offered

variable (h : Offered f f' n)
include h

theorem place_eq (hk : k < f.nodes.size) : f'.place k = f.place k := by
  rcases h.node k hk with hn | ⟨-, hp, -, hn⟩
  · exact place_of_node hn
  · rw [hp]; exact place_of_node hn

theorem cost_le (hk : k < f.nodes.size) : f'.cost k ≤ f.cost k := by
  rcases h.node k hk with hn | ⟨-, -, hc, hn⟩
  · exact Int.le_of_eq (cost_of_node hn)
  · rw [cost_of_node hn]; exact Int.le_of_lt hc

theorem opens_subset (hk : k ∈ f.opens) : k ∈ f'.opens := by
  rcases h.opens with ⟨j, -, -, ho, -⟩ | ⟨-, ho⟩
  · rw [ho]; exact hk
  · rw [ho]; exact List.mem_append_left _ hk

/-- A node is an old one or the one that was offered. -/
theorem node_cases (hk : k < f'.nodes.size) :
    (k < f.nodes.size ∧ f'.node k = f.node k) ∨ f'.node k = n := by
  rw [h.size] at hk
  rcases Nat.lt_or_ge k f.nodes.size with hlt | hge
  · exact (h.node k hlt).imp (fun hn => ⟨hlt, hn⟩) fun hn => hn.2.2.2
  · rw [show k = f.nodes.size by omega]
    exact Or.inr h.last

/-- The place of the offered node is open, at no higher cost. -/
theorem exists_open : ∃ j ∈ f'.opens, f'.place j = n.place ∧ f'.cost j ≤ n.cost.toInt := by
  rcases h.opens with ⟨j, hj, hp, ho, hc⟩ | ⟨-, ho⟩
  · exact ⟨j, ho ▸ hj, hp, hc⟩
  · refine ⟨f.nodes.size, ?_, place_of_node h.last, Int.le_of_eq (cost_of_node h.last)⟩
    rw [ho]; simp

end Offered

end Frontier

end Grid

end ErCanvas
