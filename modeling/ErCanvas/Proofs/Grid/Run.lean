import Mathlib.Data.Finset.Prod
import Mathlib.Data.Int.Interval
import ErCanvas.Proofs.Grid.Explored

/-! # Runs of a search

`Explores` relates a search to the nodes expanded on the way to it, so a fact about every round of
every run is an induction on it.

* `Explores.sound`: the invariant holds all along a run.
* `Sound.length_done_le`: no run expands more nodes than there are places on the canvas, and the
  start.
* `solve_spec`: the rounds allowed always suffice; a search ends at a node less than a cell from the
  goal or with no open node. -/

namespace ErCanvas.Grid

namespace Search

/-- **The runs of a search** for `g` from `s`: from the start, some rounds have led to `r` and have
expanded the nodes `done`, the last one first. -/
inductive Explores (t : Terrain) (s g : Place) : Search → List ℕ → Prop where
  | start {r : Search} (h : (t.problem g).start (.int s.1) (.int s.2) = .ok r) : Explores t s g r []
  | round {r r' : Search} {done : List ℕ} {i : ℕ} (hr : Explores t s g r done)
      (hb : r.frontier.best? = some i) (h : (t.problem g).step r = .ok (.goOn r')) :
      Explores t s g r' (i :: done)

variable {t : Terrain} {s g : Place} {r : Search} {done : List ℕ} {i : ℕ}

/-! ### One round -/

theorem best?_mem (h : Sound t s g r done) (hb : r.frontier.best? = some i) :
    i ∈ r.frontier.opens := (Frontier.best?_eq_some h.whole.node hb).1

/-- A round that finds a node near the goal. -/
theorem step_near (h : Sound t s g r done) (hb : r.frontier.best? = some i)
    (hn : t.Near g (r.frontier.place i)) :
    (t.problem g).step r = .ok (.decided (.reached r.frontier i)) := by
  have hi := h.node i (h.lt i (List.mem_append_left _ (best?_mem h hb)))
  unfold Problem.step
  simp only [hb]
  rw [hi, Terrain.isGoal_problem, decide_eq_true hn]
  rfl

/-- A round that expands a node. -/
theorem step_expand (h : Sound t s g r done) (hb : r.frontier.best? = some i)
    (hn : ¬ t.Near g (r.frontier.place i)) :
    ∃ r', (t.problem g).step r = .ok (.goOn r') ∧ Sound t s g r' (i :: done) ∧
      Grows (i :: done) r r' ∧
      ∀ q, t.Step (r.frontier.place i) q → t.Free q → Covered t r' (i :: done) i q := by
  have hmem := best?_mem h hb
  have hi := h.node i (h.lt i (List.mem_append_left _ hmem))
  obtain ⟨r', he, h', hg, hc⟩ := expand_spec h hmem
  refine ⟨r', ?_, h', hg, hc⟩
  unfold Problem.step
  simp only [hb]
  rw [hi, Terrain.isGoal_problem, decide_eq_false hn]
  simp only [bind, Except.bind, he]
  rfl

/-- The three outcomes of a round. -/
theorem step_cases (h : Sound t s g r done) :
    (r.frontier.best? = none ∧ (t.problem g).step r = .ok (.decided .noWay)) ∨
    (∃ i, r.frontier.best? = some i ∧ t.Near g (r.frontier.place i) ∧
      (t.problem g).step r = .ok (.decided (.reached r.frontier i))) ∨
    ∃ i r', r.frontier.best? = some i ∧ ¬ t.Near g (r.frontier.place i) ∧
      (t.problem g).step r = .ok (.goOn r') := by
  rcases hb : r.frontier.best? with _ | i
  · exact Or.inl ⟨rfl, by simp only [Problem.step, hb]⟩
  · by_cases hn : t.Near g (r.frontier.place i)
    · exact Or.inr (Or.inl ⟨i, rfl, hn, step_near h hb hn⟩)
    · obtain ⟨r', he, -⟩ := step_expand h hb hn
      exact Or.inr (Or.inr ⟨i, r', rfl, hn, he⟩)

/-- A round that goes on: its best node is not near the goal and has been expanded. -/
theorem goOn_spec {r' : Search} (h : Sound t s g r done) (hb : r.frontier.best? = some i)
    (he : (t.problem g).step r = .ok (.goOn r')) :
    ¬ t.Near g (r.frontier.place i) ∧ Sound t s g r' (i :: done) ∧ Grows (i :: done) r r' ∧
      ∀ q, t.Step (r.frontier.place i) q → t.Free q → Covered t r' (i :: done) i q := by
  by_cases hn : t.Near g (r.frontier.place i)
  · rw [step_near h hb hn] at he
    cases he
  · obtain ⟨r₁, h₁, hs, hg, hc⟩ := step_expand h hb hn
    rw [he] at h₁
    cases h₁
    exact ⟨hn, hs, hg, hc⟩

/-! ### All rounds -/

/-- **The invariant holds all along a run.** -/
theorem Explores.sound (h : Explores t s g r done) : Sound t s g r done := by
  induction h with
  | start h =>
    obtain ⟨r₀, h₀, hs, -⟩ := sound_start t s g
    rw [h] at h₀
    cases h₀
    exact hs
  | round _ hb h ih => exact (goOn_spec ih hb h).2.1

/-- No expanded node is near the goal. -/
theorem Explores.not_near (h : Explores t s g r done) :
    ∀ d ∈ done, ¬ t.Near g (r.frontier.place d) := by
  induction h with
  | start _ => exact fun d hd => absurd hd List.not_mem_nil
  | round hr hb h ih =>
    obtain ⟨hn, -, hg, -⟩ := goOn_spec hr.sound hb h
    intro d hd
    rw [hg.place_done hd]
    rcases List.mem_cons.1 hd with rfl | hd
    · exact hn
    · exact ih d hd

/-- An expanded or open node is the root's place or a free one. -/
theorem Sound.place_cases (h : Sound t s g r done) (hi : i < r.frontier.nodes.size) :
    r.frontier.place i = s ∨ t.Free (r.frontier.place i) := by
  rcases h.linked i hi with ⟨-, hp, -⟩ | ⟨p, -, -, -, hf, -⟩
  · exact Or.inl hp
  · exact Or.inr hf

/-- No more nodes are expanded than there are places on the canvas, and the start. -/
theorem Sound.length_done_le (h : Sound t s g r done) :
    done.length ≤ (t.width.toNat + 1) * (t.height.toNat + 1) + 1 := by
  have hn : (done.map r.frontier.place).Nodup := by
    have := h.nodup
    rw [List.map_append] at this
    exact this.of_append_right
  have hsub : (done.map r.frontier.place).toFinset ⊆
      insert s (Finset.Icc 0 t.width ×ˢ Finset.Icc 0 t.height) := by
    intro p hp
    obtain ⟨d, hd, rfl⟩ := List.mem_map.1 (List.mem_toFinset.1 hp)
    rcases h.place_cases (h.lt d (List.mem_append_right _ hd)) with hs | hf
    · exact hs ▸ Finset.mem_insert_self _ _
    · exact Finset.mem_insert_of_mem (Finset.mem_product.2
        ⟨Finset.mem_Icc.2 hf.1.1, Finset.mem_Icc.2 hf.1.2⟩)
  have hcard := (Finset.card_le_card hsub).trans (Finset.card_insert_le _ _)
  rw [List.toFinset_card_of_nodup hn, List.length_map, Finset.card_product, Int.card_Icc,
    Int.card_Icc] at hcard
  refine hcard.trans (Nat.succ_le_succ (Nat.mul_le_mul ?_ ?_)) <;> omega

/-- What a search comes to: at a node near the goal, or at the end of all open nodes. -/
def Ends (t : Terrain) (s g : Place) : Verdict → Prop
  | .reached f i => ∃ r done, Explores t s g r done ∧ r.frontier = f ∧ f.best? = some i ∧
      t.Near g (f.place i)
  | .noWay => ∃ r done, Explores t s g r done ∧ r.frontier.best? = none
  | .unfinished => False

theorem run_spec : ∀ (fuel : ℕ) (r : Search) (done : List ℕ), Explores t s g r done →
    (t.width.toNat + 1) * (t.height.toNat + 1) + 2 ≤ fuel + done.length →
    ∃ v, (t.problem g).run fuel r = .ok v ∧ Ends t s g v
  | 0, r, done, h, hlen => by
    have := h.sound.length_done_le
    omega
  | fuel + 1, r, done, h, hlen => by
    unfold Problem.run
    rcases step_cases h.sound with ⟨hb, he⟩ | ⟨i, hb, hn, he⟩ | ⟨i, r', hb, hn, he⟩
    · exact ⟨.noWay, by rw [he]; rfl, r, done, h, hb⟩
    · exact ⟨.reached r.frontier i, by rw [he]; rfl, r, done, h, rfl, hb, hn⟩
    · obtain ⟨v, hv, hend⟩ := run_spec fuel r' (i :: done) (h.round hb he)
        (by rw [List.length_cons]; omega)
      exact ⟨v, by rw [he]; exact hv, hend⟩

/-- **A search on whole terrain always ends** within the rounds it is allowed. -/
theorem solve_spec (t : Terrain) (s g : Place) :
    ∃ v, (t.problem g).solve (.int s.1) (.int s.2) = .ok v ∧ Ends t s g v := by
  obtain ⟨r, hr, -⟩ := sound_start t s g
  obtain ⟨v, hv, hend⟩ := run_spec (t.problem g).rounds r [] (.start hr) (Nat.le_refl _)
  exact ⟨v, by unfold Problem.solve; rw [hr]; exact hv, hend⟩

end Search

end ErCanvas.Grid
