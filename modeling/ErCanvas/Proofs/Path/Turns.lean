import ErCanvas.Proofs.Path.Bends

/-! # What is kept of a path, place by place

Smoothing looks back at the last point that it has kept, however far back that is. Between that point and
the present one the path has kept to one heading, so the step from the one to the other has the heading of
the last step of the path itself. Whether a point is kept therefore depends on its two neighbours in the
path alone (`smooth_eq_turns`).

* `turns`: the places of a path at which its heading changes. -/

namespace ErCanvas.Path

/-- The interior places of a path at which the step that leads to them and the step that leads on have
different headings. -/
def turns (w : List Place) : List Place :=
  ((List.finRange (w.length - 2)).filter fun i =>
    heading w[i.1] w[i.1 + 1] ≠ heading w[i.1 + 1] w[i.1 + 2]).map fun i => w[i.1 + 1]

theorem turns_cons (a b c : Place) (w : List Place) : turns (a :: b :: c :: w) =
    if heading a b = heading b c then turns (b :: c :: w) else b :: turns (b :: c :: w) := by
  have hrange : List.finRange ((a :: b :: c :: w).length - 2) =
      (0 : Fin (w.length + 1)) :: (List.finRange w.length).map Fin.succ := List.finRange_succ
  rw [turns, hrange, List.filter_cons, List.filter_map]
  by_cases h : heading a b = heading b c
  · rw [if_neg (by simpa using h), if_pos h, List.map_map]
    rfl
  · rw [if_pos (by simpa using h), if_neg h, List.map_cons, List.map_map]
    rfl

theorem goesOn_point (a b c : Place) :
    goesOn a.point b.point c.point = .ok (heading a b == heading b c) := by
  obtain ⟨on, hon⟩ := (comparable_point [a, b, c]).exists_goesOn (p := a.point) (q := b.point)
    (r := c.point) (by simp) (by simp) (by simp)
  rw [hon, goesOn_eq a.isAt_point b.isAt_point c.isAt_point hon]

/-- What is kept behind `kept`, if the path came to `b` from `a` with the heading that `b` has from there. -/
theorem smoothFrom_eq_turns {kept a b : Place} (w : List Place) (h : heading kept b = heading a b) :
    smoothFrom kept.point ((b :: w).map Place.point) =
      .ok ((turns (a :: b :: w) ++ [(b :: w).getLast (List.cons_ne_nil b w)]).map Place.point) := by
  induction w generalizing kept a b with
  | nil => rfl
  | cons c w ih =>
    rw [List.map_cons, List.map_cons, smoothFrom, goesOn_point, Outcome.ok_bind, h, turns_cons,
      List.getLast_cons (List.cons_ne_nil c w)]
    by_cases hc : heading a b = heading b c
    · -- the point is dropped, and the heading goes on
      have hkept : heading kept c = heading b c := (heading_of_eq (h.trans hc)).trans (h.trans hc)
      rw [if_pos (by simpa using hc), if_pos hc]
      exact ih hkept
    · rw [if_neg (by simpa using hc), if_neg hc, ← List.map_cons, ih rfl]
      rfl

/-- **Smoothing keeps the ends of a path and its turns**, which are told from neighbouring places of the
path as it is given. -/
theorem smooth_eq_turns {w : List Place} (h : 3 ≤ w.length) : smooth (w.map Place.point) =
    .ok ((w[0] :: (turns w ++ [w[w.length - 1]])).map Place.point) := by
  match w, h with
  | a :: b :: c :: w, _ =>
    show (smoothFrom a.point ((b :: c :: w).map Place.point) >>= fun kept => .ok (a.point :: kept)) = _
    rw [smoothFrom_eq_turns (c :: w) rfl, Outcome.ok_bind, ← List.map_cons, List.getLast_eq_getElem]
    rfl

/-- A path with a run of steps of one heading and different lengths, a step of no length, and a reversal. -/
def windingPath : List Place := [(0, 0), (3, 1), (4, 7), (9, 8), (9, 8), (9, 8), (2, 8), (5, 8)]

theorem smooth_eq_turns_winding : 3 ≤ windingPath.length ∧
    turns windingPath = [(9, 8), (9, 8), (2, 8)] ∧ smooth (windingPath.map Place.point) =
      .ok ([(0, 0), (9, 8), (9, 8), (2, 8), (5, 8)].map Place.point) := by
  have h : 3 ≤ windingPath.length := by decide
  have hturns : turns windingPath = [(9, 8), (9, 8), (2, 8)] := by decide
  refine ⟨h, hturns, ?_⟩
  rw [smooth_eq_turns h, hturns]
  rfl

end ErCanvas.Path
