import ErCanvas.Proofs.Path.Smooth

/-! # Smooth paths bend at every point

A path bends at an interior point if the step that leads to it and the step that leads on have different
headings. Steps of one heading add up to a step of that heading, so the points that are dropped between
two kept ones do not change the heading from the one to the other. A smoothed path therefore bends at every
interior point, and there is nothing to be dropped from it by smoothing it again.

* `Comparable`: the points of which every difference can be taken.
* `Bends`: the paths that bend at every interior point.
* `smooth_bends`, `smooth_of_bends`: smooth paths bend, and paths that bend are left alone.
* `smooth_smooth`: smoothing twice is smoothing once. -/

namespace ErCanvas.Path

/-! ### Points that can be compared -/

/-- The differences between the coordinates of any two of the points can be taken. -/
def Comparable (points : List Point) : Prop :=
  ∀ p ∈ points, ∀ q ∈ points, (∃ d, direction p.x q.x = .ok d) ∧ ∃ d, direction p.y q.y = .ok d

section

variable {points out : List Point} {p q r : Point}

theorem Comparable.subset (h : Comparable points) (hsub : out ⊆ points) : Comparable out :=
  fun p hp q hq => h p (hsub hp) q (hsub hq)

theorem Comparable.exists_goesOn (h : Comparable points) (hp : p ∈ points) (hq : q ∈ points)
    (hr : r ∈ points) : ∃ on, goesOn p q r = .ok on := by
  obtain ⟨⟨a, ha⟩, b, hb⟩ := h p hp q hq
  obtain ⟨⟨c, hc⟩, d, hd⟩ := h q hq r hr
  exact ⟨_, by simp only [goesOn, straight, ha, hb, hc, hd, Outcome.ok_bind]; rfl⟩

theorem Comparable.exists_smoothFrom (h : Comparable (p :: points)) :
    ∃ out, smoothFrom p points = .ok out := by
  induction points generalizing p with
  | nil => exact ⟨[], rfl⟩
  | cons q points ih =>
    cases points with
    | nil => exact ⟨[q], rfl⟩
    | cons r points =>
      obtain ⟨on, hon⟩ := h.exists_goesOn (p := p) (q := q) (r := r) (by simp) (by simp) (by simp)
      rw [smoothFrom, hon, Outcome.ok_bind]
      cases on with
      | true => exact ih (h.subset (List.cons_subset_cons p (List.subset_cons_self q _)))
      | false =>
        obtain ⟨tail, htail⟩ := ih (h.subset (List.subset_cons_self p _))
        exact ⟨q :: tail, by rw [if_neg Bool.false_ne_true, htail]; rfl⟩

/-- A path of points that can be compared can be smoothed. -/
theorem Comparable.exists_smooth (h : Comparable points) : ∃ out, smooth points = .ok out := by
  rcases points with - | ⟨p, - | ⟨q, - | ⟨r, points⟩⟩⟩
  · exact ⟨_, rfl⟩
  · exact ⟨_, rfl⟩
  · exact ⟨_, rfl⟩
  · obtain ⟨tail, htail⟩ := h.exists_smoothFrom
    exact ⟨p :: tail, by rw [smooth, htail]; rfl⟩

/-- Points with whole coordinates can be compared. -/
theorem comparable_point (w : List Place) : Comparable (w.map Place.point) := by
  intro p hp q hq
  obtain ⟨a, -, rfl⟩ := List.mem_map.1 hp
  obtain ⟨b, -, rfl⟩ := List.mem_map.1 hq
  exact ⟨⟨_, rfl⟩, _, rfl⟩

end

/-! ### Bends -/

/-- The path bends at every interior point. -/
def Bends : List Place → Prop
  | a :: b :: c :: rest => heading a b ≠ heading b c ∧ Bends (b :: c :: rest)
  | _ => True

section

variable {a b c : Place} {places : List Place} {p q : Point} {points out : List Point}

theorem Bends.cons (h : Bends (b :: c :: places)) (hne : heading a b ≠ heading b c) :
    Bends (a :: b :: c :: places) := ⟨hne, h⟩

theorem sign_sub_of_eq {x y z : ℤ} (h : (y - x).sign = (z - y).sign) :
    (z - x).sign = (y - x).sign := by
  rcases between_of_sign h with ⟨hxy, hyz⟩ | ⟨rfl, rfl⟩ | ⟨hzy, hyx⟩
  · rw [Int.sign_eq_one_of_pos (by omega), Int.sign_eq_one_of_pos (by omega)]
  · rfl
  · rw [Int.sign_eq_neg_one_of_neg (by omega), Int.sign_eq_neg_one_of_neg (by omega)]

/-- **Two steps of one heading** are together a step of that heading. -/
theorem heading_of_eq (h : heading a b = heading b c) : heading a c = heading a b := by
  obtain ⟨hx, hy⟩ := Prod.ext_iff.1 h
  exact Prod.ext (sign_sub_of_eq hx) (sign_sub_of_eq hy)

/-- What smoothing makes of a path from the last point kept on: it leaves that point with the heading of
the path, and bends from there on. -/
theorem smoothFrom_bends (hpoints : List.Forall₂ Point.IsAt points places) (hp : p.IsAt a)
    (hq : q.IsAt b) (h : smoothFrom p (q :: points) = .ok out) :
    ∃ c kept, List.Forall₂ Point.IsAt out (c :: kept) ∧ heading a c = heading a b ∧
      Bends (a :: c :: kept) := by
  induction hpoints generalizing p q a b out with
  | nil =>
    cases h
    exact ⟨b, [], .cons hq .nil, rfl, trivial⟩
  | @cons r c points places hr hpoints ih =>
    rw [smoothFrom] at h
    obtain ⟨on, hon, h⟩ := Outcome.bind_eq_ok.1 h
    have hon := goesOn_eq hp hq hr hon
    cases on with
    | true =>
      obtain ⟨d, kept, hout, hheading, hbends⟩ := ih hp hr h
      exact ⟨d, kept, hout, hheading.trans (heading_of_eq (beq_iff_eq.1 hon.symm)), hbends⟩
    | false =>
      obtain ⟨tail, htail, h⟩ := Outcome.bind_eq_ok.1 h
      obtain rfl := Except.ok.inj h
      obtain ⟨d, kept, hout, hheading, hbends⟩ := ih hq hr htail
      -- the point is kept, and the next one kept lies in the direction of the next point of the path
      have hne : heading a b ≠ heading b d := hheading ▸ beq_eq_false_iff_ne.1 hon.symm
      exact ⟨b, d :: kept, .cons hq hout, rfl, hbends.cons hne⟩

/-- **Smooth paths bend** at every interior point. -/
theorem smooth_bends (hpoints : List.Forall₂ Point.IsAt points places) (h : smooth points = .ok out) :
    ∃ kept, List.Forall₂ Point.IsAt out kept ∧ Bends kept := by
  unfold smooth at h
  split at h
  · obtain ⟨tail, htail, h⟩ := Outcome.bind_eq_ok.1 h
    obtain rfl := Except.ok.inj h
    cases hpoints with
    | cons hp hpoints =>
      cases hpoints with
      | cons hq hpoints =>
        obtain ⟨c, kept, hout, -, hbends⟩ := smoothFrom_bends hpoints hp hq htail
        exact ⟨_, .cons hp hout, hbends⟩
  · rename_i hshort
    cases h
    rcases hpoints with - | ⟨hp, - | ⟨hq, - | ⟨hr, hpoints⟩⟩⟩
    · exact ⟨_, .nil, trivial⟩
    · exact ⟨_, .cons hp .nil, trivial⟩
    · exact ⟨_, .cons hp (.cons hq .nil), trivial⟩
    · exact absurd rfl (hshort _ _ _ _)

theorem smoothFrom_of_bends (hpoints : List.Forall₂ Point.IsAt points places) (hp : p.IsAt a)
    (hbends : Bends (a :: places)) (hc : Comparable (p :: points)) :
    smoothFrom p points = .ok points := by
  induction hpoints generalizing p a with
  | nil => rfl
  | @cons q b points places hq hpoints ih =>
    cases hpoints with
    | nil => rfl
    | @cons r c points places hr hpoints =>
      obtain ⟨on, hon⟩ := hc.exists_goesOn (p := p) (q := q) (r := r) (by simp) (by simp) (by simp)
      have heq := goesOn_eq hp hq hr hon
      rw [beq_eq_false_iff_ne.2 hbends.1] at heq
      subst heq
      rw [smoothFrom, hon, Outcome.ok_bind, if_neg Bool.false_ne_true,
        ih hq hbends.2 (hc.subset (List.subset_cons_self p _))]
      rfl

/-- **Paths that bend are left alone.** -/
theorem smooth_of_bends (hpoints : List.Forall₂ Point.IsAt points places) (hbends : Bends places)
    (hc : Comparable points) : smooth points = .ok points := by
  unfold smooth
  split
  · cases hpoints with
    | cons hp hpoints =>
      rw [smoothFrom_of_bends hpoints hp hbends hc]
      rfl
  · rfl

/-- What smoothing leaves of a path at places is left alone by smoothing. -/
theorem exists_smooth_fixed (hpoints : List.Forall₂ Point.IsAt points places) (hc : Comparable points) :
    ∃ out kept, smooth points = .ok out ∧ List.Forall₂ Point.IsAt out kept ∧ Bends kept ∧
      smooth out = .ok out := by
  obtain ⟨out, hout⟩ := hc.exists_smooth
  obtain ⟨kept, hkept, hbends⟩ := smooth_bends hpoints hout
  have hsub := (smooth_sublist hout).1.subset
  exact ⟨out, kept, hout, hkept, hbends, smooth_of_bends hkept hbends (hc.subset hsub)⟩

end

theorem forall₂_isAt_point (w : List Place) : List.Forall₂ Point.IsAt (w.map Place.point) w :=
  List.forall₂_map_left_iff.2 (List.forall₂_same.2 fun a _ => a.isAt_point)

/-- **Smoothing is idempotent:** every path with whole coordinates can be smoothed, the smooth path bends
at every interior point, and smoothing it again changes nothing. -/
theorem smooth_smooth (w : List Place) : ∃ out kept, smooth (w.map Place.point) = .ok out ∧
    List.Forall₂ Point.IsAt out kept ∧ Bends kept ∧ smooth out = .ok out :=
  exists_smooth_fixed (forall₂_isAt_point w) (comparable_point w)

/-- A diagonal step and one along an axis have different headings. -/
example : smooth ([(0, 0), (3, 1), (5, 9), (5, 9), (5, 9), (8, 9)].map Place.point) =
    .ok ([(0, 0), (5, 9), (5, 9), (8, 9)].map Place.point) := rfl

end ErCanvas.Path
