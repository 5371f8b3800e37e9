import Mathlib.Data.List.Chain
import ErCanvas.Grid.Search
import ErCanvas.Proofs.Canvas.Place
import ErCanvas.Proofs.Outcome

/-! # Whole terrain and walks on it

When the cell, the canvas and the obstacles have whole coordinates, a search meets whole numbers only.
A `Terrain` holds these data, `Terrain.problem` is the search on it, and a `Terrain.Walk` goes from
place to place: it steps by one cell along one axis, and every place after the first is on the
canvas and in no obstacle grown by a cell.

* `isFree_problem`, `isGoal_problem`, `nodeAt_problem`: what a search computes on whole terrain.
* `Walk.snoc`, `Walk.cases_last`: walks are made, and taken apart, at their ends. -/

namespace ErCanvas.Grid

/-- The distance of two places along the axes. -/
def distance (p q : Place) : ℤ := (p.1 - q.1).natAbs + (p.2 - q.2).natAbs

/-- A rectangle with whole coordinates. -/
structure Box where
  x : ℤ
  y : ℤ
  width : ℤ
  height : ℤ
deriving DecidableEq

namespace Box

def rect (b : Box) : Rect := ⟨.int b.x, .int b.y, .int b.width, .int b.height⟩

/-- The place lies in the box grown by `m`, the edges included. -/
def Covers (b : Box) (m : ℤ) (p : Place) : Prop :=
  (b.x - m ≤ p.1 ∧ p.1 ≤ b.x + b.width + m) ∧ (b.y - m ≤ p.2 ∧ p.2 ≤ b.y + b.height + m)

instance (b : Box) (m : ℤ) (p : Place) : Decidable (b.Covers m p) := by
  unfold Covers; infer_instance

end Box

/-- A cell size, a canvas from zero to `width` and `height`, and obstacles. -/
structure Terrain where
  cell : ℤ
  width : ℤ
  height : ℤ
  boxes : List Box

namespace Terrain

variable (t : Terrain)

def extent : Extent := ⟨.int t.width, .int t.height⟩

def obstacles : List Rect := t.boxes.map Box.rect

/-- The search for the place `g`. -/
def problem (g : Place) : Problem := ⟨.int g.1, .int g.2, .int t.cell, t.obstacles, t.extent⟩

/-- The place is on the canvas and in no obstacle grown by a cell. -/
def Free (p : Place) : Prop :=
  ((0 ≤ p.1 ∧ p.1 ≤ t.width) ∧ (0 ≤ p.2 ∧ p.2 ≤ t.height)) ∧ ∀ b ∈ t.boxes, ¬ b.Covers t.cell p

instance (p : Place) : Decidable (t.Free p) := by unfold Free; infer_instance

/-- The places one cell away along one axis: right, left, down and up. -/
def around (p : Place) : List Place :=
  [(p.1 + t.cell, p.2), (p.1 - t.cell, p.2), (p.1, p.2 + t.cell), (p.1, p.2 - t.cell)]

/-- From `p` to `q` exactly one coordinate changes, by exactly one cell. -/
def Step (p q : Place) : Prop :=
  (q.1 = p.1 + t.cell ∨ q.1 = p.1 - t.cell) ∧ q.2 = p.2 ∨
    q.1 = p.1 ∧ (q.2 = p.2 + t.cell ∨ q.2 = p.2 - t.cell)

instance (p q : Place) : Decidable (t.Step p q) := by unfold Step; infer_instance

/-- The place is less than a cell from `g` on both axes. -/
def Near (g p : Place) : Prop :=
  ((p.1 - g.1).natAbs : ℤ) < t.cell ∧ ((p.2 - g.2).natAbs : ℤ) < t.cell

instance (g p : Place) : Decidable (t.Near g p) := by unfold Near; infer_instance

/-- The places are whole cells apart on both axes. -/
def Aligned (p q : Place) : Prop := t.cell ∣ q.1 - p.1 ∧ t.cell ∣ q.2 - p.2

/-- The places of a way from `s` to `g`: every step is one cell along one axis and leads to a free
place. -/
structure Walk (s g : Place) (w : List Place) : Prop where
  head : w.head? = some s
  last : w.getLast? = some g
  steps : w.IsChain fun p q => t.Step p q ∧ t.Free q

/-! ### Steps and walks -/

variable {t} {s g p q : Place} {w : List Place}

theorem mem_around : q ∈ t.around p ↔ t.Step p q := by
  obtain ⟨a, b⟩ := p
  obtain ⟨c, d⟩ := q
  simp only [around, Step, List.mem_cons, List.not_mem_nil, or_false, Prod.mk.injEq]
  tauto

theorem Step.symm (h : t.Step p q) : t.Step q p := by unfold Step at h ⊢; omega

theorem distance_self (p : Place) : distance p p = 0 := by unfold distance; omega

theorem distance_comm (p q : Place) : distance p q = distance q p := by unfold distance; omega

theorem distance_triangle (p q r : Place) : distance p r ≤ distance p q + distance q r := by
  unfold distance; omega

/-- One step away the distance is greater by at most one cell. -/
theorem Step.distance_le (h : t.Step p q) (hc : 0 < t.cell) (r : Place) :
    distance r q ≤ distance r p + t.cell := by
  unfold Step at h
  unfold distance
  omega

theorem near_self (hc : 0 < t.cell) (g : Place) : t.Near g g := by
  unfold Near; omega

/-- Whole cells apart, only the goal itself is near the goal. -/
theorem eq_of_near (hg : t.Aligned s g) (hp : t.Aligned s p) (hn : t.Near g p) : p = g := by
  have h1 : t.cell ∣ p.1 - g.1 := by
    rw [show p.1 - g.1 = (p.1 - s.1) - (g.1 - s.1) by omega]
    exact Int.dvd_sub hp.1 hg.1
  have h2 : t.cell ∣ p.2 - g.2 := by
    rw [show p.2 - g.2 = (p.2 - s.2) - (g.2 - s.2) by omega]
    exact Int.dvd_sub hp.2 hg.2
  have h3 := Int.eq_zero_of_dvd_of_natAbs_lt_natAbs h1 (by have := hn.1; omega)
  have h4 := Int.eq_zero_of_dvd_of_natAbs_lt_natAbs h2 (by have := hn.2; omega)
  exact Prod.ext (by omega) (by omega)

theorem Aligned.refl (p : Place) : t.Aligned p p := by simp [Aligned]

theorem Aligned.step (h : t.Aligned p q) {q' : Place} (hs : t.Step q q') : t.Aligned p q' := by
  obtain ⟨⟨a, ha⟩, ⟨b, hb⟩⟩ := h
  rcases hs with ⟨h1 | h1, h2⟩ | ⟨h1, h2 | h2⟩
  · exact ⟨⟨a + 1, by rw [Int.mul_add]; omega⟩, ⟨b, by omega⟩⟩
  · exact ⟨⟨a - 1, by rw [Int.mul_sub]; omega⟩, ⟨b, by omega⟩⟩
  · exact ⟨⟨a, by omega⟩, ⟨b + 1, by rw [Int.mul_add]; omega⟩⟩
  · exact ⟨⟨a, by omega⟩, ⟨b - 1, by rw [Int.mul_sub]; omega⟩⟩

theorem Walk.single (s : Place) : t.Walk s s [s] := ⟨rfl, rfl, .singleton _⟩

theorem Walk.ne_nil (h : t.Walk s g w) : w ≠ [] := by
  rintro rfl
  cases h.head

theorem Walk.length_pos (h : t.Walk s g w) : 0 < w.length := List.length_pos_of_ne_nil h.ne_nil

theorem Walk.snoc (h : t.Walk s p w) (hs : t.Step p q) (hf : t.Free q) :
    t.Walk s q (w ++ [q]) := by
  refine ⟨?_, by simp, ?_⟩
  · rw [List.head?_append, h.head]; rfl
  · refine List.isChain_append.2 ⟨h.steps, .singleton _, ?_⟩
    intro a ha b hb
    rw [h.last, Option.mem_some_iff] at ha
    rw [List.head?_cons, Option.mem_some_iff] at hb
    subst ha hb
    exact ⟨hs, hf⟩

/-- A walk is the place where it ends, or a walk with one more step. -/
theorem Walk.cases_last (h : t.Walk s g w) :
    s = g ∧ w = [s] ∨ ∃ v p, w = v ++ [g] ∧ t.Walk s p v ∧ t.Step p g ∧ t.Free g := by
  obtain ⟨v, rfl⟩ := List.getLast?_eq_some_iff.1 h.last
  rcases List.eq_nil_or_concat v with rfl | ⟨u, p, rfl⟩
  · have hg := h.head
    rw [List.nil_append, List.head?_cons, Option.some.injEq] at hg
    exact Or.inl ⟨hg.symm, by rw [hg]; rfl⟩
  · obtain ⟨hv, -, hlast⟩ := List.isChain_append.1 h.steps
    obtain ⟨hs, hf⟩ := hlast p (by simp) g (by simp)
    have hh := h.head
    rw [List.head?_append_of_ne_nil _ (by simp)] at hh
    exact Or.inr ⟨_, p, rfl, ⟨hh, by simp, hv⟩, hs, hf⟩

/-- Induction on a walk along its steps. -/
theorem Walk.induct {motive : ∀ g w, t.Walk s g w → Prop} (single : motive s [s] (.single s))
    (snoc : ∀ v p q (hv : t.Walk s p v) (hs : t.Step p q) (hf : t.Free q), motive p v hv →
      motive q (v ++ [q]) (hv.snoc hs hf)) (h : t.Walk s g w) : motive g w h := by
  induction hn : w.length generalizing g w with
  | zero => exact absurd hn h.length_pos.ne'
  | succ n ih =>
    rcases h.cases_last with ⟨rfl, rfl⟩ | ⟨v, p, rfl, hv, hs, hf⟩
    · exact single
    · rw [List.length_append, List.length_singleton] at hn
      exact snoc v p g hv hs hf (ih hv (by omega))

/-- Every place of a walk but the first is free. -/
theorem Walk.free {a : Place} (h : t.Walk s g (a :: w)) : ∀ q ∈ w, t.Free q := by
  have hsteps := h.steps
  clear h
  induction w generalizing a with
  | nil => exact nofun
  | cons b w ih =>
    obtain ⟨hab, hsteps⟩ := List.isChain_cons_cons.1 hsteps
    exact List.forall_mem_cons.2 ⟨hab.2, ih hsteps⟩

/-! ### What a search computes on whole terrain -/

theorem sideCovers_extent (l v : ℤ) :
    Extent.sideCovers (.int l) (.int v) = .ok (decide (0 ≤ v ∧ v ≤ l)) := Outcome.ok_and _ _

theorem sideCovers_rect (a l m v : ℤ) :
    Rect.sideCovers (.int a) (.int l) (.int m) (.int v) =
      .ok (decide (a - m ≤ v ∧ v ≤ a + l + m)) := Outcome.ok_and _ _

theorem contains_rect (b : Box) (m : ℤ) (p : Place) :
    b.rect.contains (.int p.1) (.int p.2) (.int m) = .ok (decide (b.Covers m p)) := by
  unfold Rect.contains Box.rect
  rw [sideCovers_rect, sideCovers_rect]
  exact (Outcome.ok_and _ _).trans (congrArg _ (decide_eq_decide.2 Iff.rfl))

theorem isBlocked_boxes (m : ℤ) (p : Place) : ∀ boxes : List Box,
    isBlocked (.int p.1) (.int p.2) (boxes.map Box.rect) (.int m) =
      .ok (!decide (∀ b ∈ boxes, ¬ b.Covers m p))
  | [] => by simp [isBlocked]
  | b :: boxes => by
    rw [List.map_cons, isBlocked, contains_rect, isBlocked_boxes m p boxes]
    by_cases h : b.Covers m p <;> simp [bind, Except.bind, pure, Except.pure, h]

theorem contains_extent (w h : ℤ) (p : Place) :
    Extent.contains ⟨.int w, .int h⟩ (.int p.1) (.int p.2) =
      .ok (decide ((0 ≤ p.1 ∧ p.1 ≤ w) ∧ 0 ≤ p.2 ∧ p.2 ≤ h)) := by
  unfold Extent.contains
  rw [sideCovers_extent, sideCovers_extent]
  exact Outcome.ok_and _ _

theorem isFree_problem (t : Terrain) (g p : Place) :
    (t.problem g).isFree (.int p.1) (.int p.2) = .ok (decide (t.Free p)) := by
  have hb : (Except.ok !(!decide (∀ b ∈ t.boxes, ¬ b.Covers t.cell p)) : Outcome Bool) =
      .ok (decide (∀ b ∈ t.boxes, ¬ b.Covers t.cell p)) := by rw [Bool.not_not]
  unfold Problem.isFree problem extent obstacles
  rw [contains_extent, isBlocked_boxes]
  simp only [Outcome.ok_bind, Outcome.pure_eq, hb]
  exact (Outcome.ok_and _ _).trans (congrArg _ (decide_eq_decide.2 Iff.rfl))

/-- The node at a whole place, reached at a whole cost, on the way to `g`. -/
def nodeFor (g p : Place) (cost : ℤ) (parent : Option ℕ) : Node :=
  ⟨.int p.1, .int p.2, .int cost, .int (cost + distance p g), parent⟩

theorem nodeAt_problem (t : Terrain) (g p : Place) (cost : ℤ) (parent : Option ℕ) :
    (t.problem g).nodeAt (.int p.1) (.int p.2) (.int cost) parent =
      .ok (nodeFor g p cost parent) := rfl

theorem isGoal_problem (t : Terrain) (g p : Place) (cost : ℤ) (parent : Option ℕ) :
    (t.problem g).isGoal (nodeFor g p cost parent) = .ok (decide (t.Near g p)) := by
  unfold Problem.isGoal problem nodeFor
  exact (Outcome.ok_and _ _).trans (congrArg _ (decide_eq_decide.2 Iff.rfl))

end Terrain

end ErCanvas.Grid
