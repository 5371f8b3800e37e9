import ErCanvas.Proofs.Grid.Terrain
import ErCanvas.Proofs.Path.Turns

/-! # Smoothing a path along the axes

Where every step of a path lies along an axis, smoothing does not move the line. A place is dropped only
between two steps of one heading, and these are together one step along the axis, as long as the two.

* `travelled`: the length of a path along the axes.
* `exists_smoothFrom_axial`: what is kept behind a place leads along the axes, and as far.
* `smooth_axial`: the smooth path is the same line, with a turn at every place of it. -/

namespace ErCanvas

theorem Place.point_injective : Function.Injective Place.point := by
  rintro ⟨x, y⟩ ⟨x', y'⟩ h
  simpa [Place.point] using h

theorem Place.eq_of_isAt {a b : Place} (h : a.point.IsAt b) : a = b := by
  obtain ⟨⟨x, hx, hxb⟩, y, hy, hyb⟩ := h
  obtain rfl : Number.int a.1 = x := Json.num.inj hx
  obtain rfl : Number.int a.2 = y := Json.num.inj hy
  have hfst := Number.int.inj (hxb.resolve_right fun h => nomatch h.1)
  have hsnd := Number.int.inj (hyb.resolve_right fun h => nomatch h.1)
  exact Prod.ext hfst hsnd

namespace Path

open Grid (distance)

variable {a b c : Place} {w : List Place}

/-! ### Lengths -/

/-- The length of a path, every step measured along the axes. -/
def travelled : List Place → ℤ
  | a :: b :: w => distance a b + travelled (b :: w)
  | _ => 0

/-- **Two steps of one heading** are together as long as the two. -/
theorem distance_of_heading (h : heading a b = heading b c) :
    distance a c = distance a b + distance b c := by
  obtain ⟨hx, hy⟩ := Prod.ext_iff.1 h
  have hx := between_of_sign hx
  have hy := between_of_sign hy
  unfold distance
  omega

/-! ### What is kept -/

/-- What is kept behind a place leads along the axes, and as far as the path. -/
theorem exists_smoothFrom_axial (hab : Axial a b) (hw : (b :: w).IsChain Axial) :
    ∃ kept, smoothFrom a.point ((b :: w).map Place.point) = .ok (kept.map Place.point) ∧
      (a :: kept).IsChain Axial ∧ travelled (a :: kept) = travelled (a :: b :: w) := by
  induction w generalizing a b with
  | nil => exact ⟨[b], rfl, .cons_cons hab hw, rfl⟩
  | cons c w ih =>
    obtain ⟨hbc, hw⟩ := List.isChain_cons_cons.1 hw
    rw [List.map_cons, List.map_cons, smoothFrom, goesOn_point, Outcome.ok_bind]
    by_cases hon : heading a b = heading b c
    · -- the place is dropped, and one step takes the place of two
      obtain ⟨-, hac⟩ := onSegment_of_heading hon (.inl hab)
      obtain ⟨kept, hkept, hchain, hlength⟩ := ih hac hw
      refine ⟨kept, by rw [if_pos (by simpa using hon)]; exact hkept, hchain, ?_⟩
      rw [hlength, travelled, travelled, travelled, distance_of_heading hon, add_assoc]
    · obtain ⟨kept, hkept, hchain, hlength⟩ := ih hbc hw
      rw [if_neg (by simpa using hon), ← List.map_cons, hkept]
      exact ⟨b :: kept, rfl, .cons_cons hab hchain, congrArg (distance a b + ·) hlength⟩

theorem exists_smooth_axial (hw : w.IsChain Axial) :
    ∃ kept, smooth (w.map Place.point) = .ok (kept.map Place.point) ∧ kept.IsChain Axial ∧
      travelled kept = travelled w := by
  rcases w with - | ⟨a, - | ⟨b, - | ⟨c, w⟩⟩⟩
  · exact ⟨_, rfl, hw, rfl⟩
  · exact ⟨_, rfl, hw, rfl⟩
  · exact ⟨_, rfl, hw, rfl⟩
  · obtain ⟨hab, hw⟩ := List.isChain_cons_cons.1 hw
    obtain ⟨kept, hkept, hchain, hlength⟩ := exists_smoothFrom_axial hab hw
    have hsmooth : smooth ((a :: b :: c :: w).map Place.point) =
        smoothFrom a.point ((b :: c :: w).map Place.point) >>= fun out => .ok (a.point :: out) := rfl
    rw [hsmooth, hkept]
    exact ⟨a :: kept, rfl, hchain, hlength⟩

/-- **Smoothing does not move a path along the axes.** What is kept are places of the path in order, with
both ends; they lead along the axes, every place that is dropped lies on the segment between those that
are kept around it, and the length is the same. At every interior place that is kept the path changes its
heading. -/
theorem smooth_axial (hw : w.IsChain Axial) :
    ∃ kept, smooth (w.map Place.point) = .ok (kept.map Place.point) ∧ kept.Sublist w ∧
      kept.head? = w.head? ∧ kept.getLast? = w.getLast? ∧ kept.IsChain Axial ∧
      (w ≠ [] → Straightened (w.map Place.point) (kept.map Place.point)) ∧
      travelled kept = travelled w ∧ Bends kept := by
  obtain ⟨kept, hkept, hchain, hlength⟩ := exists_smooth_axial hw
  have hinj := List.map_injective_iff.2 Place.point_injective
  obtain ⟨hsub, hhead, hlast⟩ := smooth_sublist hkept
  obtain ⟨sub, hsub, heq⟩ := List.sublist_map_iff.1 hsub
  obtain rfl := hinj heq
  rw [List.head?_map, List.head?_map] at hhead
  rw [List.getLast?_map, List.getLast?_map] at hlast
  have hinj' := Option.map_injective Place.point_injective
  refine ⟨kept, hkept, hsub, hinj' hhead, hinj' hlast, hchain, fun hne => ?_, hlength, ?_⟩
  · have haxial : AxialSteps (w ++ []) := axialSteps_append hw (Nat.zero_le _)
    rw [List.append_nil] at haxial
    exact smooth_straightened (forall₂_isAt_point w) haxial (by simpa using hne) hkept
  · obtain ⟨places, hplaces, hbends⟩ := smooth_bends (forall₂_isAt_point w) hkept
    have heq : List.Forall₂ (· = ·) kept places :=
      (List.forall₂_map_left_iff.1 hplaces).imp fun _ _ => Place.eq_of_isAt
    rw [List.forall₂_eq_eq_eq] at heq
    rwa [heq]

/-- A path along the axes with a run of steps of one heading, a step of no length, and a reversal. -/
def steppedPath : List Place := [(0, 0), (3, 0), (7, 0), (7, 0), (7, 4), (7, 9), (7, 5)]

theorem smooth_axial_stepped : steppedPath.IsChain Axial ∧
    smooth (steppedPath.map Place.point) =
      .ok ([(0, 0), (7, 0), (7, 0), (7, 9), (7, 5)].map Place.point) ∧
    travelled [(0, 0), (7, 0), (7, 0), (7, 9), (7, 5)] = travelled steppedPath := by
  have h : steppedPath.IsChain Axial := by simp [steppedPath, Axial]
  obtain ⟨kept, hkept, -, -, -, -, -, hlength, -⟩ := smooth_axial h
  have heq : smooth (steppedPath.map Place.point) =
      .ok ([(0, 0), (7, 0), (7, 0), (7, 9), (7, 5)].map Place.point) := rfl
  have hinj := List.map_injective_iff.2 Place.point_injective
  obtain rfl := hinj (Except.ok.inj (heq.symm.trans hkept))
  exact ⟨h, heq, hlength⟩

end Path

end ErCanvas
