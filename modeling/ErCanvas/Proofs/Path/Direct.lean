import ErCanvas.Connector.Orthogonal
import ErCanvas.Proofs.Canvas.Place
import ErCanvas.Proofs.Number.Value

/-! # The points of a direct line

The direct line between two points runs along three legs, and its points are smoothed. Smoothing drops a
point if the steps beside it have the same signs. On a direct line one of these steps has a sign on the
horizontal axis alone and the other one on the vertical axis alone, so nothing is dropped unless both have
no length. A leg without length therefore leaves two points at one place, and the points are turning points
only if no leg is without length.

* `Point.StandsAt`: the point stands at a place of the plane, whatever numbers its coordinates are.
* `Leg`, `course`, `Turning`: paths that consist of turning points.
* `smooth_of_changes`: what changes its course everywhere is left alone.
* `Orthogonal.points_turning_iff`: the points of the line, and when they are turning points. -/

namespace ErCanvas

/-- The point stands at a place of the plane. -/
def Point.StandsAt (p : Point) (a : ℚ × ℚ) : Prop :=
  (∃ x, p.x = .num x ∧ x.exact.IsValue a.1) ∧ ∃ y, p.y = .num y ∧ y.exact.IsValue a.2

theorem Place.standsAt_point (a : Place) : a.point.StandsAt (a.1, a.2) :=
  ⟨⟨_, rfl, .num _⟩, _, rfl, .num _⟩

/-! ### Halves -/

/-- Half of a whole number of moderate size. -/
def Half (q : ℚ) : Prop := ∃ n : ℤ, |n| ≤ 2 ^ 52 ∧ q = n / 2

section

variable {p q : ℚ}

theorem Half.ofRat_eq (hq : Half q) : Binary64.ofRat q = .num q := by
  obtain ⟨n, hn, rfl⟩ := hq
  have hn := abs_le.1 hn
  exact Binary64.ofRat_half (by omega)

/-- The difference of halves needs no rounding. -/
theorem Half.ofRat_sub (hp : Half p) (hq : Half q) : Binary64.ofRat (p - q) = .num (p - q) := by
  obtain ⟨m, hm, rfl⟩ := hp
  obtain ⟨n, hn, rfl⟩ := hq
  have hm := abs_le.1 hm
  have hn := abs_le.1 hn
  rw [← sub_div, ← Int.cast_sub]
  exact Binary64.ofRat_half (by omega)

theorem half_intCast {n : ℤ} (hn : |n| ≤ 2 ^ 50) : Half n := by
  have hn := abs_le.1 hn
  refine ⟨n * 2, abs_le.2 (by omega), ?_⟩
  rw [Int.cast_mul, Int.cast_ofNat, mul_div_cancel_right₀ _ two_ne_zero]

theorem half_middle {m n : ℤ} (hm : |m| ≤ 2 ^ 50) (hn : |n| ≤ 2 ^ 50) : Half ((m + n) / 2) := by
  have hm := abs_le.1 hm
  have hn := abs_le.1 hn
  exact ⟨m + n, abs_le.2 (by omega), by rw [Int.cast_add]⟩

end

namespace Path

/-! ### Turning points -/

/-- The signs of the step from one place of the plane to another. -/
def course (a b : ℚ × ℚ) : ℤ × ℤ := (SignType.sign (b.1 - a.1), SignType.sign (b.2 - a.2))

/-- The step leads along an axis to another place. -/
def Leg (a b : ℚ × ℚ) : Prop := a ≠ b ∧ (a.1 = b.1 ∨ a.2 = b.2)

/-- The path changes its course at every interior place. -/
def Changes : List (ℚ × ℚ) → Prop
  | a :: b :: c :: rest => course a b ≠ course b c ∧ Changes (b :: c :: rest)
  | _ => True

/-- The path consists of turning points alone: it leads along the axes, every step to another place, and
changes its course at every interior place. -/
def Turning (w : List (ℚ × ℚ)) : Prop := w.IsChain Leg ∧ Changes w

section

variable {a b c : ℚ × ℚ} {places : List (ℚ × ℚ)} {p q r : Point} {points : List Point}

theorem direction_num {x y : Number} {u v : ℚ} (hx : x.exact.IsValue u) (hy : y.exact.IsValue v)
    (hu : Half u) (hv : Half v) : direction (.num x) (.num y) = .ok (SignType.sign (v - u) : ℤ) := by
  have hx := Number.values_of_exact hx hu.ofRat_eq
  have hy := Number.values_of_exact hy hv.ofRat_eq
  obtain ⟨d, hd, hvalue⟩ := hy.sub hx (hv.ofRat_sub hu)
  simp only [direction, Json.number, Outcome.ok_bind, hd, hvalue.sign_eq, Outcome.pure_eq]

/-- Among halves smoothing tells by exact courses whether a path goes straight on. -/
theorem goesOn_course (hp : p.StandsAt a) (hq : q.StandsAt b) (hr : r.StandsAt c)
    (ha : Half a.1 ∧ Half a.2) (hb : Half b.1 ∧ Half b.2) (hc : Half c.1 ∧ Half c.2) :
    goesOn p q r = .ok (course a b == course b c) := by
  obtain ⟨⟨x, hx, hxa⟩, y, hy, hya⟩ := hp
  obtain ⟨⟨x', hx', hxb⟩, y', hy', hyb⟩ := hq
  obtain ⟨⟨x'', hx'', hxc⟩, y'', hy'', hyc⟩ := hr
  simp only [goesOn, straight, hx, hx', hx'', hy, hy', hy'', direction_num hxa hxb ha.1 hb.1,
    direction_num hxb hxc hb.1 hc.1, direction_num hya hyb ha.2 hb.2, direction_num hyb hyc hb.2 hc.2,
    Outcome.ok_bind, Outcome.pure_eq]
  rfl

theorem smoothFrom_of_changes (hpoints : List.Forall₂ Point.StandsAt points places) (hp : p.StandsAt a)
    (hhalves : ∀ b ∈ a :: places, Half b.1 ∧ Half b.2) (h : Changes (a :: places)) :
    smoothFrom p points = .ok points := by
  induction hpoints generalizing p a with
  | nil => rfl
  | @cons q b points places hq hpoints ih =>
    obtain ⟨ha, hplaces⟩ := List.forall_mem_cons.1 hhalves
    cases hpoints with
    | nil => rfl
    | @cons r c points places hr hpoints =>
      obtain ⟨hb, hc, -⟩ := List.forall_mem_cons.1 hplaces |>.imp_right List.forall_mem_cons.1
      rw [smoothFrom, goesOn_course hp hq hr ha hb hc, beq_eq_false_iff_ne.2 h.1, Outcome.ok_bind,
        if_neg Bool.false_ne_true, ih hq hplaces h.2]
      rfl

/-- **A path that changes its course everywhere is left alone.** -/
theorem smooth_of_changes (hpoints : List.Forall₂ Point.StandsAt points places)
    (hhalves : ∀ b ∈ places, Half b.1 ∧ Half b.2) (h : Changes places) : smooth points = .ok points := by
  unfold smooth
  split
  · cases hpoints with
    | cons hp hpoints =>
      rw [smoothFrom_of_changes hpoints hp hhalves h]
      rfl
  · rfl

end

end Path

namespace Orthogonal

open ErCanvas.Path

/-! ### The line -/

/-- The places along the direct line from `a` to `b`. -/
def waypoints (a b : Place) : List (ℚ × ℚ) :=
  [(a.1, a.2), ((a.1 + b.1) / 2, a.2), ((a.1 + b.1) / 2, b.2), (b.1, b.2)]

variable {start finish : Point} {a b : Place}

theorem half_waypoints (ha : |a.1| ≤ 2 ^ 50 ∧ |a.2| ≤ 2 ^ 50) (hb : |b.1| ≤ 2 ^ 50 ∧ |b.2| ≤ 2 ^ 50) :
    ∀ c ∈ waypoints a b, Half c.1 ∧ Half c.2 := by
  have hmiddle := half_middle ha.1 hb.1
  have ha := ha.imp half_intCast half_intCast
  have hb := hb.imp half_intCast half_intCast
  simp only [waypoints, List.forall_mem_cons]
  exact ⟨ha, ⟨hmiddle, ha.2⟩, ⟨hmiddle, hb.2⟩, hb, List.forall_mem_nil _⟩

/-- The middle between whole coordinates. -/
theorem exists_middle {x y : Number} {m n : ℤ} (hx : x.exact.IsValue m) (hy : y.exact.IsValue n)
    (hm : |m| ≤ 2 ^ 50) (hn : |n| ≤ 2 ^ 50) :
    ∃ w : Binary64, middle (.num x) (.num y) = .ok (.float w) ∧ w.IsValue ((m + n) / 2) := by
  have hx := Number.values_of_exact hx (half_intCast hm).ofRat_eq
  have hy := Number.values_of_exact hy (half_intCast hn).ofRat_eq
  have hsum : Binary64.ofRat (m + n) = .num (m + n) := by
    have hm := abs_le.1 hm
    have hn := abs_le.1 hn
    rw [← Int.cast_add]
    exact Number.ofRat_intCast (by omega)
  obtain ⟨s, hs, hvalue⟩ := hx.add hy hsum
  have htwo : Binary64.ofRat (2 : ℤ) = .num (2 : ℤ) := Number.ofRat_intCast (by decide)
  obtain ⟨w, hw, hwvalue⟩ := hvalue.div_int htwo two_ne_zero (half_middle hm hn).ofRat_eq
  refine ⟨w, ?_, hwvalue⟩
  simp only [middle, Json.number, Outcome.ok_bind, hs, hw]

theorem sign_eq_zero_iff_int {q : ℚ} : (SignType.sign q : ℤ) = 0 ↔ q = 0 := by
  refine Iff.trans ?_ sign_eq_zero_iff
  cases SignType.sign q <;> decide

theorem course_across (u v x : ℚ) : course (u, x) (v, x) = ((SignType.sign (v - u) : ℤ), 0) := by
  rw [course, sub_self, sign_zero]
  rfl

theorem course_down (u x y : ℚ) : course (u, x) (u, y) = (0, (SignType.sign (y - x) : ℤ)) := by
  rw [course, sub_self, sign_zero]
  rfl

theorem leg_across {u v x : ℚ} : Leg (u, x) (v, x) ↔ u ≠ v := by
  simp [Leg]

theorem leg_down {u x y : ℚ} : Leg (u, x) (u, y) ↔ x ≠ y := by
  simp [Leg]

/-- Between different places the line changes its course at both interior places: one of the steps beside
them goes along the one axis and one along the other, and not both have no length. -/
theorem changes_waypoints (hne : a ≠ b) : Changes (waypoints a b) := by
  have hfirst : ((a.1 + b.1) / 2 - a.1 : ℚ) = (b.1 - a.1) / 2 := by ring
  have hlast : (b.1 - (a.1 + b.1) / 2 : ℚ) = (b.1 - a.1) / 2 := by ring
  have hsteps : ((SignType.sign ((b.1 - a.1) / 2 : ℚ) : ℤ), (0 : ℤ)) ≠
      (0, (SignType.sign (b.2 - a.2 : ℚ) : ℤ)) := by
    intro h
    obtain ⟨hx, hy⟩ := Prod.ext_iff.1 h
    have hx : (b.1 : ℚ) = a.1 :=
      sub_eq_zero.1 ((div_eq_zero_iff.1 (sign_eq_zero_iff_int.1 hx)).resolve_right two_ne_zero)
    have hy : (b.2 : ℚ) = a.2 := sub_eq_zero.1 (sign_eq_zero_iff_int.1 hy.symm)
    exact hne (Prod.ext (Int.cast_inj.1 hx.symm) (Int.cast_inj.1 hy.symm))
  simp only [waypoints, Changes, course_across, course_down, hfirst, hlast]
  exact ⟨hsteps, hsteps.symm, trivial⟩

theorem isChain_leg_waypoints : (waypoints a b).IsChain Leg ↔ a.1 ≠ b.1 ∧ a.2 ≠ b.2 := by
  have hfirst : (a.1 : ℚ) ≠ (a.1 + b.1) / 2 ↔ a.1 ≠ b.1 := by
    rw [ne_eq, eq_div_iff two_ne_zero, mul_two, add_right_inj, Int.cast_inj]
  have hlast : ((a.1 + b.1) / 2 : ℚ) ≠ b.1 ↔ a.1 ≠ b.1 := by
    rw [ne_eq, div_eq_iff two_ne_zero, mul_two, add_left_inj, Int.cast_inj]
  have hdown : (a.2 : ℚ) ≠ b.2 ↔ a.2 ≠ b.2 := Int.cast_inj.not
  simp only [waypoints, List.isChain_cons_cons, List.isChain_singleton, leg_across, leg_down, hfirst, hlast,
    hdown]
  tauto

/-- The points of the line stand at the places along it. -/
theorem exists_points_eq (hs : start.StandsAt (a.1, a.2)) (hf : finish.StandsAt (b.1, b.2))
    (ha : |a.1| ≤ 2 ^ 50 ∧ |a.2| ≤ 2 ^ 50) (hb : |b.1| ≤ 2 ^ 50 ∧ |b.2| ≤ 2 ^ 50) (hne : a ≠ b) :
    ∃ w : Binary64, w.IsValue ((a.1 + b.1) / 2) ∧
      points start finish =
        .ok [start, ⟨.num (.float w), start.y⟩, ⟨.num (.float w), finish.y⟩, finish] ∧
      List.Forall₂ Point.StandsAt
        [start, ⟨.num (.float w), start.y⟩, ⟨.num (.float w), finish.y⟩, finish] (waypoints a b) := by
  obtain ⟨⟨x, hx, hxa⟩, hy⟩ := hs
  obtain ⟨⟨x', hx', hxb⟩, hy'⟩ := hf
  obtain ⟨w, hw, hmiddle⟩ := exists_middle hxa hxb ha.1 hb.1
  have hstands : List.Forall₂ Point.StandsAt
      [start, ⟨.num (.float w), start.y⟩, ⟨.num (.float w), finish.y⟩, finish] (waypoints a b) :=
    .cons ⟨⟨x, hx, hxa⟩, hy⟩ (.cons ⟨⟨_, rfl, hmiddle⟩, hy⟩
      (.cons ⟨⟨_, rfl, hmiddle⟩, hy'⟩ (.cons ⟨⟨x', hx', hxb⟩, hy'⟩ .nil)))
  refine ⟨w, hmiddle, ?_, hstands⟩
  rw [points, hx, hx', hw, Outcome.ok_bind]
  exact smooth_of_changes hstands (half_waypoints ha hb) (changes_waypoints hne)

/-- **The points of the direct line** between different whole places are always the two ends and two points
half the way across, at the heights of the ends. They are turning points exactly if the ends differ in both
coordinates: in one row the two points in the middle are one, and in one column they are the ends. -/
theorem points_turning_iff (hs : start.StandsAt (a.1, a.2)) (hf : finish.StandsAt (b.1, b.2))
    (ha : |a.1| ≤ 2 ^ 50 ∧ |a.2| ≤ 2 ^ 50) (hb : |b.1| ≤ 2 ^ 50 ∧ |b.2| ≤ 2 ^ 50) (hne : a ≠ b) :
    ∃ w : Binary64, points start finish =
        .ok [start, ⟨.num (.float w), start.y⟩, ⟨.num (.float w), finish.y⟩, finish] ∧
      List.Forall₂ Point.StandsAt
        [start, ⟨.num (.float w), start.y⟩, ⟨.num (.float w), finish.y⟩, finish] (waypoints a b) ∧
      (Turning (waypoints a b) ↔ a.1 ≠ b.1 ∧ a.2 ≠ b.2) := by
  obtain ⟨w, -, hw, hstands⟩ := exists_points_eq hs hf ha hb hne
  exact ⟨w, hw, hstands, (and_iff_left (changes_waypoints hne)).trans isChain_leg_waypoints⟩

theorem points_turning_iff_diagonal :
    Turning [(0, 0), (7 / 2, 0), (7 / 2, 100), (7, 100)] ∧
      ∃ w : Binary64, points (Place.point (0, 0)) (Place.point (7, 100)) =
        .ok [Place.point (0, 0), ⟨.num (.float w), .int 0⟩, ⟨.num (.float w), .int 100⟩,
          Place.point (7, 100)] := by
  obtain ⟨w, hw, -, hturning⟩ := points_turning_iff (Place.standsAt_point (0, 0))
    (Place.standsAt_point (7, 100)) (by decide) (by decide) (by decide)
  have hwaypoints : waypoints (0, 0) (7, 100) = [(0, 0), (7 / 2, 0), (7 / 2, 100), (7, 100)] := by
    norm_num [waypoints]
  exact ⟨hwaypoints ▸ hturning.2 (by decide), w, hw⟩

/-- In one row the point in the middle is there twice. -/
theorem points_repeated : points (Place.point (0, 0)) (Place.point (100, 0)) =
      .ok [Place.point (0, 0), ⟨.num (.float (.num 50)), .int 0⟩, ⟨.num (.float (.num 50)), .int 0⟩,
        Place.point (100, 0)] ∧
    ¬ Turning [(0, 0), (50, 0), (50, 0), (100, 0)] := by
  obtain ⟨w, hvalue, hw, -⟩ := exists_points_eq (Place.standsAt_point (0, 0))
    (Place.standsAt_point (100, 0)) (by decide) (by decide) (by decide)
  have hmiddle : ((0 : ℤ) + (100 : ℤ) : ℚ) / 2 = 50 := by norm_num
  rw [hmiddle] at hvalue
  obtain ⟨-⟩ := hvalue
  refine ⟨hw, fun h => ?_⟩
  obtain ⟨-, h⟩ := List.isChain_cons_cons.1 h.1
  exact (List.isChain_cons_cons.1 h).1.1 rfl

end Orthogonal

end ErCanvas
