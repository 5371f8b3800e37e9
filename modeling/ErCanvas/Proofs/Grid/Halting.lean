import ErCanvas.Proofs.Grid.Route

/-! # Searches end

No search goes on forever, whatever the size of a cell, which may be negative, and whether or not the
goal can be reached and the start is on the canvas. No position is taken out of the frontier twice, and
all but the first are on the canvas.

* `Problem.run_add`: a search that is decided stays so in any greater number of rounds.
* `Terrain.search_ends`: the positions taken out, and how many rounds decide a search. -/

namespace ErCanvas.Grid

/-- **More rounds decide nothing else.** -/
theorem Problem.run_add {p : Problem} {v : Verdict} (hv : v ≠ .unfinished) (more : ℕ) :
    ∀ (fuel : ℕ) (r : Search), p.run fuel r = .ok v → p.run (fuel + more) r = .ok v
  | 0, r, h => absurd (Except.ok.inj h).symm hv
  | fuel + 1, r, h => by
    rw [Nat.succ_add]
    unfold run at h ⊢
    obtain ⟨round, hround, h⟩ := Outcome.bind_eq_ok.1 h
    rw [hround]
    cases round with
    | decided w => exact h
    | goOn r' => exact run_add hv more fuel r' h

theorem Search.Ends.ne_unfinished {t : Terrain} {s g : Place} {v : Verdict} (h : Ends t s g v) :
    v ≠ .unfinished := by
  rintro rfl
  exact h

namespace Terrain

variable {t : Terrain} {s g : Place} {start finish : Point}

/-- The place is on the canvas. -/
def OnCanvas (t : Terrain) (p : Place) : Prop :=
  (0 ≤ p.1 ∧ p.1 ≤ t.width) ∧ 0 ≤ p.2 ∧ p.2 ≤ t.height

/-- The number of places on the canvas. -/
def capacity (t : Terrain) : ℕ := (t.width.toNat + 1) * (t.height.toNat + 1)

/-- **The positions taken out** in a run are different ones, and all but the start are on the canvas,
whole cells away from the start. -/
theorem expanded_places {r : Search} {done : List ℕ} (h : Search.Explores t s g r done) :
    (done.map r.frontier.place).Nodup ∧
      (∀ d ∈ done, r.frontier.place d = s ∨
        t.OnCanvas (r.frontier.place d) ∧ t.Aligned s (r.frontier.place d)) ∧
      done.length ≤ t.capacity + 1 := by
  have hs := h.sound
  have hnodup := hs.nodup
  rw [List.map_append] at hnodup
  refine ⟨hnodup.of_append_right, fun d hd => ?_, hs.length_done_le⟩
  have hlt := hs.lt d (List.mem_append_right _ hd)
  exact (hs.place_cases hlt).imp_right fun hfree => ⟨hfree.1, hs.aligned d hlt⟩

/-- **Every search ends.** In every run between two points that can be snapped no position is taken out
twice, and all but the start are on the canvas, whole cells away from the start. So the search is decided
after as many rounds as there are places on the canvas and two more, and this is the verdict of the whole
search. -/
theorem search_ends (hs : t.Accepts start) (hf : t.Accepts finish) :
    ∃ s g, t.Snaps start s ∧ t.Snaps finish g ∧
      (∀ r done, Search.Explores t s g r done →
        (done.map r.frontier.place).Nodup ∧
        (∀ d ∈ done, r.frontier.place d = s ∨
          t.OnCanvas (r.frontier.place d) ∧ t.Aligned s (r.frontier.place d)) ∧
        done.length ≤ t.capacity + 1) ∧
      ∃ r v, (t.problem g).start (.int s.1) (.int s.2) = .ok r ∧ v ≠ .unfinished ∧
        t.solveBetween start finish = .ok v ∧
        ∀ fuel ≥ t.capacity + 2, (t.problem g).run fuel r = .ok v := by
  obtain ⟨s, hs, -⟩ := hs.exists_snaps
  obtain ⟨g, hg, -⟩ := hf.exists_snaps
  refine ⟨s, g, hs, hg, fun r done => expanded_places, ?_⟩
  obtain ⟨r, hr, -⟩ := Search.sound_start t s g
  obtain ⟨v, hv, hends⟩ := Search.run_spec (t.capacity + 2) r [] (.start hr) le_rfl
  refine ⟨r, v, hr, hends.ne_unfinished, ?_, fun fuel hfuel => ?_⟩
  · rw [solveBetween_eq hs hg, Problem.solve, hr]
    exact hv
  · obtain ⟨more, rfl⟩ := Nat.exists_eq_add_of_le hfuel
    exact Problem.run_add hends.ne_unfinished more _ r hv

/-! Cells of a negative size: no node is ever less than a cell from the goal. -/

/-- A small canvas with a box, and cells of the size minus twenty. -/
def mirrored : Terrain := ⟨-20, 60, 40, [⟨20, 20, 5, 5⟩]⟩

theorem search_ends_mirrored :
    ∃ v, v ≠ .unfinished ∧ mirrored.solveBetween ⟨.int 3, .int 41⟩ ⟨.int 57, .int 4⟩ = .ok v := by
  have hstart : mirrored.Accepts ⟨.int 3, .int 41⟩ :=
    ⟨⟨.int 0, by decide +kernel⟩, ⟨.int 40, by decide +kernel⟩⟩
  have hfinish : mirrored.Accepts ⟨.int 57, .int 4⟩ :=
    ⟨⟨.int 60, by decide +kernel⟩, ⟨.int 0, by decide +kernel⟩⟩
  obtain ⟨-, -, -, -, -, -, v, -, hv, hsolve, -⟩ := search_ends hstart hfinish
  exact ⟨v, hv, hsolve⟩

end Terrain

end ErCanvas.Grid
