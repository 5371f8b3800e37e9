import Mathlib.Data.Int.Order.Basic
import ErCanvas.Path.Smooth
import ErCanvas.Proofs.Canvas.Place
import ErCanvas.Proofs.Number.Sign

/-! # What smoothing leaves of a path

Smoothing drops interior points of a path. It goes by the directions of steps on the axes only, so it
may leave out a corner between two diagonal steps; where of two steps in a row one always lies along an
axis, every point that is dropped lies between the points that are kept around it.

* `smooth_sublist`: what is kept are points of the path in order, with the first one and the last.
* `Point.IsAt`: the point stands at a place, for floating-point coordinates as well.
* `OnSegment`, `Straightened`: a place on a straight line; a path of which nothing but such places is
  left out.
* `smooth_straightened`: smoothing straightens a path whose steps are axial, one of two at least. -/

namespace ErCanvas

/-- The point stands at a place; floating-point coordinates are moderate. -/
def Point.IsAt (p : Point) (a : Place) : Prop :=
  (∃ x, p.x = .num x ∧ x.Has a.1) ∧ ∃ y, p.y = .num y ∧ y.Has a.2

theorem Place.isAt_point (a : Place) : a.point.IsAt a := ⟨⟨_, rfl, .inl rfl⟩, _, rfl, .inl rfl⟩

namespace Path

/-! ### What is kept -/

theorem getLast?_cons_eq {α : Type} {l m : List α} {b : α} (a : α)
    (h : l.getLast? = (b :: m).getLast?) : (a :: l).getLast? = (b :: m).getLast? := by
  rw [List.getLast?_cons, h, List.getLast?_cons]
  rfl

theorem smoothFrom_sublist {kept : Point} {points out : List Point}
    (h : smoothFrom kept points = .ok out) :
    out.Sublist points ∧ out.getLast? = points.getLast? := by
  induction points generalizing kept out with
  | nil => cases h; exact ⟨.refl _, rfl⟩
  | cons here rest ih =>
    cases rest with
    | nil => cases h; exact ⟨.refl _, rfl⟩
    | cons after rest =>
      rw [smoothFrom] at h
      obtain ⟨on, -, h⟩ := Outcome.bind_eq_ok.1 h
      rw [List.getLast?_cons_cons]
      cases on with
      | true =>
        obtain ⟨hsub, hlast⟩ := ih h
        exact ⟨hsub.cons here, hlast⟩
      | false =>
        obtain ⟨tail, htail, h⟩ := Outcome.bind_eq_ok.1 h
        obtain rfl := Except.ok.inj h
        obtain ⟨hsub, hlast⟩ := ih htail
        exact ⟨hsub.cons_cons here, getLast?_cons_eq here hlast⟩

/-- **Smoothing keeps points of the path** in order, and its ends. -/
theorem smooth_sublist {points out : List Point} (h : smooth points = .ok out) :
    out.Sublist points ∧ out.head? = points.head? ∧ out.getLast? = points.getLast? := by
  unfold smooth at h
  split at h
  · rename_i first second third rest
    obtain ⟨tail, htail, h⟩ := Outcome.bind_eq_ok.1 h
    obtain rfl := Except.ok.inj h
    obtain ⟨hsub, hlast⟩ := smoothFrom_sublist htail
    refine ⟨hsub.cons_cons first, rfl, ?_⟩
    rw [List.getLast?_cons_cons]
    exact getLast?_cons_eq first hlast
  · cases h
    exact ⟨.refl _, rfl, rfl⟩

/-! ### Straight lines -/

/-- The signs of the step from one place to another. -/
def heading (a b : Place) : ℤ × ℤ := ((b.1 - a.1).sign, (b.2 - a.2).sign)

/-- The step lies along an axis. -/
def Axial (a b : Place) : Prop := a.1 = b.1 ∨ a.2 = b.2

/-- The place lies on the straight segment between two others. -/
def OnSegment (a b p : Place) : Prop :=
  ∃ t : ℚ, 0 ≤ t ∧ t ≤ 1 ∧ (p.1 : ℚ) = a.1 + t * (b.1 - a.1) ∧ (p.2 : ℚ) = a.2 + t * (b.2 - a.2)

theorem OnSegment.trans {a b c p : Place} (hb : OnSegment a c b) (hp : OnSegment a b p) :
    OnSegment a c p := by
  obtain ⟨t, ht0, ht1, hbx, hby⟩ := hb
  obtain ⟨u, hu0, hu1, hpx, hpy⟩ := hp
  refine ⟨u * t, mul_nonneg hu0 ht0, mul_le_one₀ hu1 ht0 ht1, ?_, ?_⟩
  · rw [hpx, hbx]; ring
  · rw [hpy, hby]; ring

/-- Two steps of the same sign go on in the same direction, or are none. -/
theorem between_of_sign {a b c : ℤ} (h : (b - a).sign = (c - b).sign) :
    (a < b ∧ b < c) ∨ (a = b ∧ b = c) ∨ c < b ∧ b < a := by
  rcases Int.lt_trichotomy a b with hab | rfl | hab
  · rw [Int.sign_eq_one_of_pos (by omega), eq_comm, Int.sign_eq_one_iff_pos] at h
    omega
  · rw [Int.sub_self, Int.sign_zero, eq_comm, Int.sign_eq_zero_iff_zero] at h
    omega
  · rw [Int.sign_eq_neg_one_of_neg (by omega), eq_comm, Int.sign_eq_neg_one_iff_neg] at h
    omega

/-- A number between two others divides the way from the one to the other in some ratio. -/
theorem exists_ratio {a b c : ℚ} (hab : a ≤ b) (hbc : b ≤ c) :
    ∃ t : ℚ, 0 ≤ t ∧ t ≤ 1 ∧ b = a + t * (c - a) := by
  rcases (hab.trans hbc).eq_or_lt with rfl | hac
  · exact ⟨0, le_rfl, zero_le_one, by rw [le_antisymm hbc hab]; ring⟩
  · have hpos := sub_pos.2 hac
    refine ⟨(b - a) / (c - a), div_nonneg (sub_nonneg.2 hab) hpos.le, ?_, ?_⟩
    · rw [div_le_one hpos]
      exact sub_le_sub_right hbc a
    · rw [div_mul_cancel₀ _ hpos.ne', add_sub_cancel]

theorem exists_ratio_of_sign {a b c : ℤ} (h : (b - a).sign = (c - b).sign) :
    ∃ t : ℚ, 0 ≤ t ∧ t ≤ 1 ∧ (b : ℚ) = a + t * (c - a) := by
  rcases between_of_sign h with ⟨hab, hbc⟩ | ⟨rfl, rfl⟩ | ⟨hbc, hab⟩
  · exact exists_ratio (Int.cast_le.2 hab.le) (Int.cast_le.2 hbc.le)
  · exact exists_ratio le_rfl le_rfl
  · obtain ⟨t, ht0, ht1, ht⟩ := exists_ratio (a := -(a : ℚ)) (b := -(b : ℚ)) (c := -(c : ℚ))
      (neg_le_neg (Int.cast_le.2 hab.le)) (neg_le_neg (Int.cast_le.2 hbc.le))
    exact ⟨t, ht0, ht1, by linarith⟩

theorem eq_of_sign {a b c : ℤ} (h : (b - a).sign = (c - b).sign) : a = b ↔ b = c := by
  rcases between_of_sign h with h | h | h <;> omega

/-- Where a path goes straight on along an axis, it is at a place on the segment. -/
theorem onSegment_of_heading {a b c : Place} (h : heading a b = heading b c)
    (haxial : Axial a b ∨ Axial b c) : OnSegment a c b ∧ Axial a c := by
  obtain ⟨hx, hy⟩ := Prod.ext_iff.1 h
  have haxial : Axial a b := haxial.elim id fun hbc =>
    hbc.imp (eq_of_sign hx).2 (eq_of_sign hy).2
  rcases haxial with hax | hay
  · obtain ⟨t, ht0, ht1, ht⟩ := exists_ratio_of_sign hy
    have hbx := (eq_of_sign hx).1 hax
    exact ⟨⟨t, ht0, ht1, by rw [← hbx, hax]; ring, ht⟩, .inl (hax.trans hbx)⟩
  · obtain ⟨t, ht0, ht1, ht⟩ := exists_ratio_of_sign hx
    have hby := (eq_of_sign hy).1 hay
    exact ⟨⟨t, ht0, ht1, ht, by rw [← hby, hay]; ring⟩, .inr (hay.trans hby)⟩

/-! ### Straightened paths -/

/-- The point stands on the straight segment between two others. -/
def Between (p q r : Point) : Prop :=
  ∃ a b c : Place, p.IsAt a ∧ q.IsAt b ∧ r.IsAt c ∧ OnSegment a b c

/-- The second path is the first one without points between those that are kept around them. -/
inductive Straightened : List Point → List Point → Prop
  | last (p : Point) : Straightened [p] [p]
  | next {p q : Point} {removed rest kept : List Point} (h : ∀ r ∈ removed, Between p q r)
      (hrest : Straightened (q :: rest) (q :: kept)) :
      Straightened (p :: (removed ++ q :: rest)) (p :: q :: kept)

/-- Of each two steps in a row one lies along an axis. -/
def AxialSteps : List Place → Prop
  | a :: b :: c :: rest => (Axial a b ∨ Axial b c) ∧ AxialSteps (b :: c :: rest)
  | _ => True

section

variable {p q r : Point} {a b c : Place} {places : List Place}

theorem AxialSteps.tail (h : AxialSteps (a :: b :: places)) : AxialSteps (b :: places) := by
  cases places with
  | nil => trivial
  | cons c places => exact h.2

/-- A step along an axis can take the place of any first step. -/
theorem AxialSteps.replace (h : AxialSteps (b :: places)) (ha : Axial a b) :
    AxialSteps (a :: b :: places) := by
  cases places with
  | nil => trivial
  | cons c places => exact ⟨.inl ha, h⟩

theorem axialSteps_of_length_le (h : places.length ≤ 2) : AxialSteps places := by
  rcases places with - | ⟨a, - | ⟨b, - | ⟨c, places⟩⟩⟩
  · trivial
  · trivial
  · trivial
  · simp at h

/-- At the end of a path along the axes there may be one more step. -/
theorem axialSteps_append {tail : List Place} (h : places.IsChain Axial) (htail : tail.length ≤ 1) :
    AxialSteps (places ++ tail) := by
  induction places with
  | nil => exact axialSteps_of_length_le (htail.trans one_le_two)
  | cons a places ih =>
    rcases places with - | ⟨b, places⟩
    · exact axialSteps_of_length_le (Nat.succ_le_succ htail)
    · obtain ⟨hab, h⟩ := List.isChain_cons_cons.1 h
      exact (ih h).replace hab

theorem direction_eq {u v : Json} {x y : Number} {m n d : ℤ} (hu : u = .num x) (hx : x.Has m)
    (hv : v = .num y) (hy : y.Has n) (h : direction u v = .ok d) : d = (n - m).sign := by
  subst hu hv
  have h : (y.sub x >>= fun z => .ok z.sign) = .ok d := h
  obtain ⟨z, hz, h⟩ := Outcome.bind_eq_ok.1 h
  rw [← Except.ok.inj h, hy.sign_sub hx hz]

/-- Smoothing tells by exact headings whether a path goes straight on. -/
theorem goesOn_eq {on : Bool} (hp : p.IsAt a) (hq : q.IsAt b) (hr : r.IsAt c)
    (h : goesOn p q r = .ok on) : on = (heading a b == heading b c) := by
  obtain ⟨⟨x, hx, hxa⟩, y, hy, hya⟩ := hp
  obtain ⟨⟨x', hx', hxb⟩, y', hy', hyb⟩ := hq
  obtain ⟨⟨x'', hx'', hxc⟩, y'', hy'', hyc⟩ := hr
  obtain ⟨sameX, hsameX, h⟩ := Outcome.bind_eq_ok.1 h
  obtain ⟨sameY, hsameY, h⟩ := Outcome.bind_eq_ok.1 h
  obtain ⟨d, hd, hsameX⟩ := Outcome.bind_eq_ok.1 hsameX
  obtain ⟨d', hd', hsameX⟩ := Outcome.bind_eq_ok.1 hsameX
  obtain ⟨e, he, hsameY⟩ := Outcome.bind_eq_ok.1 hsameY
  obtain ⟨e', he', hsameY⟩ := Outcome.bind_eq_ok.1 hsameY
  rw [← Except.ok.inj h, ← Except.ok.inj hsameX, ← Except.ok.inj hsameY,
    direction_eq hx hxa hx' hxb hd, direction_eq hx' hxb hx'' hxc hd',
    direction_eq hy hya hy' hyb he, direction_eq hy' hyb hy'' hyc he']
  rfl

theorem Straightened.next_of_isAt {removed rest kept : List Point} (hp : p.IsAt a) (hq : q.IsAt b)
    (hremoved : ∀ r ∈ removed, ∃ c, r.IsAt c ∧ OnSegment a b c)
    (hrest : Straightened (q :: rest) (q :: kept)) :
    Straightened (p :: (removed ++ q :: rest)) (p :: q :: kept) := by
  refine .next (fun r hr => ?_) hrest
  obtain ⟨c, hc, hon⟩ := hremoved r hr
  exact ⟨a, b, c, hp, hq, hc, hon⟩

/-- What smoothing makes of a path from the last point kept on, `removed` being the points that have been
dropped since then. -/
theorem smoothFrom_straightened {points : List Point} (hpoints : List.Forall₂ Point.IsAt points places)
    {removed out : List Point} (hp : p.IsAt a) (hq : q.IsAt b)
    (hremoved : ∀ r ∈ removed, ∃ c, r.IsAt c ∧ OnSegment a b c)
    (haxial : AxialSteps (a :: b :: places)) (h : smoothFrom p (q :: points) = .ok out) :
    Straightened (p :: (removed ++ q :: points)) (p :: out) := by
  induction hpoints generalizing p q a b removed out with
  | nil =>
    cases h
    exact .next_of_isAt hp hq hremoved (.last q)
  | @cons r c points places hr hpoints ih =>
    rw [smoothFrom] at h
    obtain ⟨on, hon, h⟩ := Outcome.bind_eq_ok.1 h
    have hon := goesOn_eq hp hq hr hon
    cases on with
    | true =>
      obtain ⟨hsegment, hac⟩ := onSegment_of_heading (beq_iff_eq.1 hon.symm) haxial.1
      have hremoved : ∀ s ∈ removed ++ [q], ∃ d, s.IsAt d ∧ OnSegment a c d := by
        intro s hs
        rcases List.mem_append.1 hs with hs | hs
        · obtain ⟨d, hd, hon⟩ := hremoved s hs
          exact ⟨d, hd, hsegment.trans hon⟩
        · rw [List.mem_singleton.1 hs]
          exact ⟨b, hq, hsegment⟩
      have hrest := ih hp hr hremoved (haxial.tail.tail.replace hac) h
      rwa [List.append_assoc] at hrest
    | false =>
      obtain ⟨tail, htail, h⟩ := Outcome.bind_eq_ok.1 h
      obtain rfl := Except.ok.inj h
      have hrest := ih hq hr (List.forall_mem_nil _) haxial.tail htail
      exact .next_of_isAt hp hq hremoved hrest

/-- **Smoothing straightens a path** of whose steps one of two in a row lies along an axis. -/
theorem smooth_straightened {points out : List Point}
    (hpoints : List.Forall₂ Point.IsAt points places) (haxial : AxialSteps places)
    (hne : points ≠ []) (h : smooth points = .ok out) : Straightened points out := by
  cases hpoints with
  | nil => exact absurd rfl hne
  | @cons p _ _ _ hp hpoints =>
    cases hpoints with
    | nil => cases h; exact .last p
    | @cons q _ _ _ hq hpoints =>
      cases hpoints with
      | nil => cases h; exact .next (List.forall_mem_nil _) (.last q)
      | cons hr hpoints =>
        obtain ⟨tail, htail, h⟩ := Outcome.bind_eq_ok.1 h
        obtain rfl := Except.ok.inj h
        exact smoothFrom_straightened (.cons hr hpoints) hp hq (List.forall_mem_nil _) haxial htail

end

end Path

end ErCanvas
