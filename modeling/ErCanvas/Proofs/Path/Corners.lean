import ErCanvas.Proofs.Number.Value
import ErCanvas.Proofs.Path.Drawable

/-! # Lines with rounded corners

The direct line between two points with whole coordinates turns twice, and the diameter of its corners is
bounded by the lengths of all legs. The corners stand at halves of whole numbers, and only the heights at
which they end are rounded, which keeps their order. So the vertical leg never turns back. Along the
horizontal legs the corners are in the order of the side on which the line leaves, and the legs do not turn
back exactly if the end of the line is not on the other side.

* `Orthogonal.Stroke`, `stroke`: the numbers along a line, and those of the line between two points.
* `exists_corners_follow`, `path_eq`: the line that is drawn.
* `oneWay_down`, `oneWay_across_iff`: where it turns back. -/

namespace ErCanvas

open Number (Values values_float values_int)

theorem Path.computed_eq {x : Number} {q : ℚ} (h : x.Values q) : computed x = .ok (numberText (.num q)) := by
  obtain ⟨z, hz, hvalue⟩ := h.converts
  have heq : computed x = x.toBinary64 >>= fun z => .ok (numberText z) := rfl
  rw [heq, hz, Outcome.ok_bind]
  cases hvalue <;> rfl

namespace Orthogonal

/-! ### Numbers along a line -/

/-- The numbers along a line with two corners. -/
structure Stroke where
  startX : ℚ
  startY : ℚ
  beforeX : ℚ
  middleX : ℚ
  leaveY : ℚ
  enterY : ℚ
  afterX : ℚ
  finishX : ℚ
  finishY : ℚ

namespace Stroke

/-- The horizontal places, in the order in which the line comes to them. -/
def across (l : Stroke) : List ℚ := [l.startX, l.beforeX, l.middleX, l.afterX, l.finishX]

/-- The heights, in the order in which the line comes to them. -/
def down (l : Stroke) : List ℚ := [l.startY, l.leaveY, l.enterY, l.finishY]

/-- The path of the line. -/
def path (l : Stroke) : String :=
  let text (q : ℚ) : String := Path.numberText (.num q)
  "M " ++ text l.startX ++ " " ++ text l.startY ++ " H " ++ text l.beforeX ++
    " Q " ++ text l.middleX ++ " " ++ text l.startY ++ " " ++ text l.middleX ++ " " ++ text l.leaveY ++
    " V " ++ text l.enterY ++
    " Q " ++ text l.middleX ++ " " ++ text l.finishY ++ " " ++ text l.afterX ++ " " ++ text l.finishY ++
    " H " ++ text l.finishX

end Stroke

/-- The numbers never decrease, or they never increase. -/
def OneWay (l : List ℚ) : Prop := l.IsChain (· ≤ ·) ∨ l.IsChain (· ≥ ·)

instance : DecidablePred OneWay := fun l =>
  inferInstanceAs (Decidable (l.IsChain (· ≤ ·) ∨ l.IsChain (· ≥ ·)))

/-- A length, forwards or backwards. -/
def directed (forward : Bool) (d : ℤ) : ℤ := if forward then d else -d

/-- Twice the radius of the corners between two points. -/
def diameter (a u b v : ℤ) : ℤ := min (min 20 |v - u|) |b - a|

/-- The line from `(a, u)` to `(b, v)`. -/
def stroke (a u b v : ℤ) (right : Bool) : Stroke where
  startX := a
  startY := u
  beforeX := (a + b - directed right (diameter a u b v) : ℤ) / 2
  middleX := (a + b : ℤ) / 2
  leaveY := (Binary64.ofRat ((2 * u + directed (u < v) (diameter a u b v) : ℤ) / 2)).toRat
  enterY := (Binary64.ofRat ((2 * v - directed (u < v) (diameter a u b v) : ℤ) / 2)).toRat
  afterX := (a + b + directed right (diameter a u b v) : ℤ) / 2
  finishX := b
  finishY := v

/-- What has been computed are the corners of the line. -/
structure Corners.Follow (c : Corners) (l : Stroke) : Prop where
  before : c.beforeX.Values l.beforeX
  middle : c.middleX.Values l.middleX
  leave : c.leaveY.Values l.leaveY
  enter : c.enterY.Values l.enterY
  after : c.afterX.Values l.afterX

theorem cornered_eq {l : Stroke} {c : Corners} {fx fy tx ty : Number} (hfx : fx.Values l.startX)
    (hfy : fy.Values l.startY) (htx : tx.Values l.finishX) (hty : ty.Values l.finishY) (hc : c.Follow l) :
    cornered (.num fx) (.num fy) (.num tx) (.num ty) c = .ok l.path := by
  have hstart := Path.computed_eq hfx
  have hstart' := Path.computed_eq hfy
  have hfinish := Path.computed_eq htx
  have hfinish' := Path.computed_eq hty
  unfold Path.computed at hstart hstart' hfinish hfinish'
  simp only [cornered, hstart, hstart', hfinish, hfinish', Path.computed_eq hc.before,
    Path.computed_eq hc.middle, Path.computed_eq hc.leave, Path.computed_eq hc.enter,
    Path.computed_eq hc.after, Outcome.ok_bind]
  rfl

/-! ### The radius -/

section

variable {x y : Number} {p q : ℚ} {a u b v n m : ℤ}

theorem values_smaller (hx : x.Values p) (hy : y.Values q) : (smaller x y).Values (min p q) := by
  rw [smaller, hy.lt_eq hx]
  split
  · rename_i hlt
    rw [min_eq_right (of_decide_eq_true hlt).le]
    exact hy
  · rename_i hle
    rw [min_eq_left (not_lt.1 fun hlt => hle (decide_eq_true hlt))]
    exact hx

/-- Half of a length that is not short is not rounded below ten. -/
theorem exists_long_half (hlow : 20 ≤ n) (hhigh : n ≤ 2 ^ 82) :
    ∃ z, Binary64.ofRat (n / 2) = .num z ∧ 10 ≤ z := by
  have hbound := Number.abs_half_le (n := n) (abs_le.2 (by omega))
  have hten : (10 : ℚ) ≤ n / 2 := by
    rw [le_div_iff₀ two_pos]
    exact_mod_cast (show 10 * 2 ≤ n by omega)
  have hten' : |(10 : ℚ)| ≤ 2 ^ (1023 : ℤ) :=
    (abs_of_nonneg (by norm_num)).trans_le (hten.trans ((le_abs_self _).trans hbound))
  obtain ⟨z, hz⟩ := Binary64.exists_ofRat_half hbound
  have hmono := Binary64.toRat_ofRat_mono hten hten' hbound
  rw [hz] at hmono
  exact ⟨z, hz, hmono⟩

/-- Half of a rounded length is that of the length itself, as far as it bounds the radius. -/
theorem exists_half (hn : |n| ≤ 2 ^ 72) (hm : Binary64.ofRat n = .num m) :
    ∃ w h, (Number.float (.num m)).abs.div (.int 2) = .ok (.float w) ∧ w.IsValue h ∧
      min 10 h = min 10 ((|n| : ℤ) / 2 : ℚ) := by
  have htwo : Binary64.ofRat (2 : ℤ) = .num (2 : ℤ) := Number.ofRat_intCast (by decide)
  rw [Number.abs_float_int]
  rcases le_or_gt n.natAbs (2 ^ 53) with hsmall | hlarge
  · obtain rfl : n = m := by
      exact_mod_cast Binary64.num.inj ((Number.ofRat_intCast hsmall).symm.trans hm)
    have hhalf := Binary64.ofRat_half (n := |n|) (by rwa [Int.natAbs_abs])
    obtain ⟨w, hw, hvalue⟩ := Number.float_div (.num _) htwo two_ne_zero hhalf
    exact ⟨w, _, hw, hvalue, rfl⟩
  · -- beyond `2 ^ 53` both halves are more than the greatest radius, whatever the rounding
    obtain ⟨k, hk, hnear⟩ := Binary64.exists_ofRat_int (Number.abs_cast_le (hn.trans (by norm_num)))
    obtain rfl : k = m := by exact_mod_cast Binary64.num.inj (hk.symm.trans hm)
    have hlength := Int.abs_eq_natAbs n
    have hlow := abs_sub_abs_le_abs_sub n k
    have hhigh := abs_sub_abs_le_abs_sub k n
    rw [abs_sub_comm] at hlow
    obtain ⟨z, hz, hten⟩ := exists_long_half (n := |k|) (by omega) (by omega)
    obtain ⟨w, hw, hvalue⟩ := Number.float_div (.num _) htwo two_ne_zero hz
    have hten' : (10 : ℚ) ≤ (|n| : ℤ) / 2 := by
      rw [le_div_iff₀ two_pos]
      exact_mod_cast (show 10 * 2 ≤ |n| by omega)
    exact ⟨w, _, hw, hvalue, (min_eq_left hten).trans (min_eq_left hten').symm⟩

theorem cast_diameter (a u b v : ℤ) :
    (diameter a u b v : ℚ) / 2 = min (min (10 : ℚ) ((|v - u| : ℤ) / 2)) |((b - a : ℤ) : ℚ) / 2| := by
  have hten : (10 : ℚ) = 20 / 2 := by norm_num
  rw [diameter, abs_div, abs_two, hten, min_div_div_right zero_le_two, min_div_div_right zero_le_two]
  push_cast
  rfl

theorem diameter_le (a u b v : ℤ) : 0 ≤ diameter a u b v ∧ diameter a u b v ≤ 20 ∧
    diameter a u b v ≤ |v - u| ∧ diameter a u b v ≤ |b - a| := by
  have hu := abs_nonneg (v - u)
  have ha := abs_nonneg (b - a)
  unfold diameter
  omega

theorem abs_sub_height_le (hu : |u| ≤ 2 ^ 71) (hv : |v| ≤ 2 ^ 71) : |v - u| ≤ 2 ^ 72 :=
  (abs_sub v u).trans ((add_le_add hv hu).trans (by norm_num))

theorem sub_heights (u v : ℤ) :
    (Number.float (.num v)).sub (.float (.num u)) = .ok (.float (Binary64.ofRat (v - u : ℤ))) := by
  rw [Int.cast_sub, ← Binary64.sub_num]
  rfl

/-- The radius of the corners is found without rounding. -/
theorem exists_radius (ha : |a| ≤ 2 ^ 51) (hb : |b| ≤ 2 ^ 51) (hu : |u| ≤ 2 ^ 71) (hv : |v| ≤ 2 ^ 71) :
    ∃ d h w, (Number.float (.num v)).sub (.float (.num u)) = .ok d ∧ d.abs.div (.int 2) = .ok h ∧
      (Number.float (.num ((a + b : ℤ) / 2))).sub (.int a) = .ok w ∧
      (smaller (smaller (.int 10) h) w.abs).Values (diameter a u b v / 2) := by
  have hn := abs_sub_height_le hu hv
  have ha := abs_le.1 ha
  have hb := abs_le.1 hb
  obtain ⟨m, hm, -⟩ := Binary64.exists_ofRat_int (Number.abs_cast_le (hn.trans (by norm_num)))
  obtain ⟨h, p, hh, hvalue, hmin⟩ := exists_half hn hm
  have hwidth : Binary64.ofRat ((a + b : ℤ) / 2 - a) = .num ((b - a : ℤ) / 2) := by
    rw [← Binary64.ofRat_half (n := b - a) (by omega)]
    push_cast
    congr 1
    ring
  obtain ⟨w, hw, hvalue'⟩ := Values.float_sub (.num ((a + b : ℤ) / 2))
    (values_int (Number.ofRat_intCast (n := a) (by omega))) hwidth
  refine ⟨.float (.num m), .float h, .float w, hm ▸ sub_heights u v, hh, hw, ?_⟩
  rw [cast_diameter, ← hmin]
  exact values_smaller (values_smaller (values_int (Number.ofRat_intCast (by decide)))
    (values_float hvalue)) (values_float hvalue'.abs)

/-! ### The corners -/

variable {r : Number} {d : ℤ}

/-- The corners stand at either side of the middle. -/
theorem exists_turns (hr : r.Values (d / 2)) (hd : 0 ≤ d ∧ d ≤ 20) (ha : |a| ≤ 2 ^ 51) (hb : |b| ≤ 2 ^ 51) :
    ∃ left right, (Number.float (.num ((a + b : ℤ) / 2))).sub r = .ok left ∧
      (Number.float (.num ((a + b : ℤ) / 2))).add r = .ok right ∧
      left.Values ((a + b - d : ℤ) / 2) ∧ right.Values ((a + b + d : ℤ) / 2) := by
  have ha := abs_le.1 ha
  have hb := abs_le.1 hb
  have hleft : Binary64.ofRat ((a + b : ℤ) / 2 - d / 2) = .num ((a + b - d : ℤ) / 2) := by
    rw [← sub_div, ← Int.cast_sub]
    exact Binary64.ofRat_half (by omega)
  have hright : Binary64.ofRat ((a + b : ℤ) / 2 + d / 2) = .num ((a + b + d : ℤ) / 2) := by
    rw [← add_div, ← Int.cast_add]
    exact Binary64.ofRat_half (by omega)
  obtain ⟨x, hx, hvalue⟩ := Values.float_sub (.num _) hr hleft
  obtain ⟨y, hy, hvalue'⟩ := Values.float_add (.num _) hr hright
  exact ⟨_, _, hx, hy, values_float hvalue, values_float hvalue'⟩

/-- The corners end on the vertical leg. -/
theorem exists_rise (hr : r.Values (d / 2)) (hd : 0 ≤ d ∧ d ≤ 20) (hu : |u| ≤ 2 ^ 71) (hv : |v| ≤ 2 ^ 71)
    (up : Bool) : ∃ rise leave enter, r.mul (.int (if up then 1 else -1)) = .ok rise ∧
      (Number.float (.num u)).add rise = .ok leave ∧ (Number.float (.num v)).sub rise = .ok enter ∧
      leave.Values (Binary64.ofRat ((2 * u + directed up d : ℤ) / 2)).toRat ∧
      enter.Values (Binary64.ofRat ((2 * v - directed up d : ℤ) / 2)).toRat := by
  have hu := abs_le.1 hu
  have hv := abs_le.1 hv
  have ht : -20 ≤ directed up d ∧ directed up d ≤ 20 := by
    unfold directed
    omega
  have hsign : Binary64.ofRat ((if up then 1 else -1 : ℤ) : ℤ) = .num ((if up then 1 else -1 : ℤ) : ℤ) :=
    Number.ofRat_intCast (by cases up <;> decide)
  have hmul : (d / 2 * ((if up then 1 else -1 : ℤ) : ℤ) : ℚ) = (directed up d : ℤ) / 2 := by
    cases up <;> simp [directed, neg_div]
  obtain ⟨rise, hrise, hvalue⟩ := hr.mul_int hsign
    (by rw [hmul]; exact Binary64.ofRat_half (by omega))
  rw [hmul] at hvalue
  obtain ⟨p, hp⟩ := Binary64.exists_ofRat_half (n := 2 * u + directed up d)
    (Number.abs_half_le (abs_le.2 (by omega)))
  obtain ⟨q, hq⟩ := Binary64.exists_ofRat_half (n := 2 * v - directed up d)
    (Number.abs_half_le (abs_le.2 (by omega)))
  have hsum : (u + (directed up d : ℤ) / 2 : ℚ) = (2 * u + directed up d : ℤ) / 2 := by
    push_cast
    ring
  have hdifference : (v - (directed up d : ℤ) / 2 : ℚ) = (2 * v - directed up d : ℤ) / 2 := by
    push_cast
    ring
  obtain ⟨x, hx, hleave⟩ := Values.float_add (.num (u : ℚ)) hvalue (by rw [hsum, hp])
  obtain ⟨y, hy, henter⟩ := Values.float_sub (.num (v : ℚ)) hvalue (by rw [hdifference, hq])
  rw [hp, hq]
  exact ⟨rise, _, _, hrise, hx, hy, values_float hleave, values_float henter⟩

/-- **The corners of the line** between two points. -/
theorem exists_corners_follow (ha : |a| ≤ 2 ^ 51) (hb : |b| ≤ 2 ^ 51) (hu : |u| ≤ 2 ^ 71)
    (hv : |v| ≤ 2 ^ 71) (right : Bool) : ∃ c,
      corners (.int a) (.num (.float (.num u))) (.int b) (.num (.float (.num v))) right cornerRadius = .ok c ∧
        c.Follow (stroke a u b v right) := by
  obtain ⟨hd0, hd20, -⟩ := diameter_le a u b v
  obtain ⟨d, h, w, hsub, hhalf, hwidth, hr⟩ := exists_radius ha hb hu hv
  obtain ⟨x, x', hx, hx', hbefore, hafter⟩ := exists_turns hr ⟨hd0, hd20⟩ ha hb
  obtain ⟨rise, leave, enter, hrise, hy, hy', hleave, henter⟩ := exists_rise hr ⟨hd0, hd20⟩ hu hv (u < v)
  have hlt : (Number.float (.num u)).lt (.float (.num v)) = decide (u < v) :=
    decide_eq_decide.2 Int.cast_lt
  refine ⟨⟨if right then x else x', .float (.num ((a + b : ℤ) / 2)), leave, enter, if right then x' else x⟩,
    ?_, ?_⟩
  · cases right <;>
      simp only [corners, cornerRadius, Json.number, middle_eq ha hb, hsub, hhalf, hwidth, hlt, hx, hx', hrise,
        hy, hy', Outcome.ok_bind, Outcome.pure_eq, if_true, if_false, Bool.false_eq_true]
  · refine ⟨?_, values_float (.num _), hleave, henter, ?_⟩
    · cases right with
      | true => exact hbefore
      | false =>
        have hflip : (stroke a u b v false).beforeX = (a + b + diameter a u b v : ℤ) / 2 :=
          congrArg (fun n : ℤ => (n : ℚ) / 2) (sub_neg_eq_add _ _)
        exact hflip ▸ hafter
    · cases right with
      | true => exact hafter
      | false => exact hbefore

/-! ### The line that is drawn -/

/-- Between different heights the line has corners. -/
theorem not_flat (hu : |u| ≤ 2 ^ 71) (hv : |v| ≤ 2 ^ 71) (hne : u ≠ v) :
    (Number.float (Binary64.ofRat (v - u : ℤ))).abs.lt (.int 1) = false := by
  have hn := abs_sub_height_le hu hv
  obtain ⟨m, hm, hnear⟩ := Binary64.exists_ofRat_int (Number.abs_cast_le (hn.trans (by norm_num)))
  have hpos : 0 < |v - u| := abs_pos.2 (sub_ne_zero.2 hne.symm)
  have hsub := abs_sub_abs_le_abs_sub (v - u) m
  rw [abs_sub_comm (v - u) m] at hsub
  have hone : ¬ ((|m| : ℤ) : ℚ) < (1 : ℤ) := by exact_mod_cast (show ¬ |m| < 1 by omega)
  rw [hm, Number.abs_float_int]
  exact decide_eq_false hone

/-- **The path of the line** between two points at different heights. -/
theorem path_eq (ha : |a| ≤ 2 ^ 51) (hb : |b| ≤ 2 ^ 51) (hu : |u| ≤ 2 ^ 71) (hv : |v| ≤ 2 ^ 71)
    (hne : u ≠ v) (right : Bool) :
    path (.int a) (.num (.float (.num u))) (.int b) (.num (.float (.num v))) right cornerRadius =
      .ok (stroke a u b v right).path := by
  obtain ⟨c, hc, hfollow⟩ := exists_corners_follow ha hb hu hv right
  have hab := abs_le.1 ha
  have hbb := abs_le.1 hb
  have hcornered := cornered_eq (values_int (Number.ofRat_intCast (n := a) (by omega)))
    (values_float (.num (u : ℚ))) (values_int (Number.ofRat_intCast (n := b) (by omega)))
    (values_float (.num (v : ℚ))) hfollow
  simp only [path, Json.number, Outcome.ok_bind, sub_heights, not_flat hu hv hne, hc, hcornered,
    Bool.false_eq_true, if_false]

/-! ### Where it turns back -/

/-- Halves that have been rounded are in order. -/
theorem rounded_half_mono (hm : |m| ≤ 2 ^ 82) (hn : |n| ≤ 2 ^ 82) (h : m ≤ n) :
    (Binary64.ofRat (m / 2)).toRat ≤ (Binary64.ofRat (n / 2)).toRat := by
  have hcast : (m : ℚ) ≤ n := by exact_mod_cast h
  exact Binary64.toRat_ofRat_mono (div_le_div_of_nonneg_right hcast zero_le_two) (Number.abs_half_le hm)
    (Number.abs_half_le hn)

theorem eq_rounded_half (h : (Binary64.num u).Settled) : (u : ℚ) = (Binary64.ofRat ((2 * u : ℤ) / 2)).toRat := by
  have h : Binary64.ofRat u = .num u := h
  rw [Int.cast_mul, Int.cast_ofNat, mul_div_cancel_left₀ _ two_ne_zero, h]
  rfl

/-- **The vertical leg does not turn back.** -/
theorem oneWay_down (hu : |u| ≤ 2 ^ 71) (hv : |v| ≤ 2 ^ 71) (hsettled : (Binary64.num u).Settled)
    (hsettled' : (Binary64.num v).Settled) (right : Bool) : OneWay (stroke a u b v right).down := by
  obtain ⟨hd0, hd20, hdv, -⟩ := diameter_le a u b v
  have hu := abs_le.1 hu
  have hv := abs_le.1 hv
  have hbound : ∀ {k : ℤ}, -2 ^ 73 ≤ k ∧ k ≤ 2 ^ 73 → |k| ≤ 2 ^ 82 := fun hk =>
    (abs_le.2 hk).trans (by norm_num)
  rw [Stroke.down]
  simp only [stroke, eq_rounded_half hsettled, eq_rounded_half hsettled']
  by_cases huv : u < v
  · rw [abs_of_pos (sub_pos.2 huv)] at hdv
    rw [decide_eq_true huv, directed, if_pos rfl]
    refine .inl (.cons_cons ?_ (.cons_cons ?_ (.cons_cons ?_ (.singleton _)))) <;>
      exact rounded_half_mono (hbound (by omega)) (hbound (by omega)) (by omega)
  · rw [abs_of_nonpos (sub_nonpos.2 (not_lt.1 huv))] at hdv
    rw [decide_eq_false huv, directed, if_neg Bool.false_ne_true]
    refine .inr (.cons_cons ?_ (.cons_cons ?_ (.cons_cons ?_ (.singleton _)))) <;>
      exact rounded_half_mono (hbound (by omega)) (hbound (by omega)) (by omega)

theorem diameter_pos (hne : u ≠ v) (hab : a ≠ b) : 0 < diameter a u b v := by
  have hu : 0 < |v - u| := abs_pos.2 (sub_ne_zero.2 hne.symm)
  have ha : 0 < |b - a| := abs_pos.2 (sub_ne_zero.2 hab.symm)
  unfold diameter
  omega

/-- Twice the horizontal places of the line are whole numbers. -/
theorem across_stroke (a u b v : ℤ) (right : Bool) : (stroke a u b v right).across =
    [2 * a, a + b - directed right (diameter a u b v), a + b, a + b + directed right (diameter a u b v),
      2 * b].map fun n : ℤ => (n : ℚ) / 2 := by
  simp [Stroke.across, stroke]

/-- **The horizontal legs do not turn back** exactly if the end of the line is on the side on which it
leaves. -/
theorem oneWay_across_iff (hne : u ≠ v) (right : Bool) :
    OneWay (stroke a u b v right).across ↔ 0 ≤ directed right (b - a) := by
  obtain ⟨hd0, -, -, hdb⟩ := diameter_le a u b v
  have hdpos := diameter_pos (a := a) (b := b) hne
  have hle : ∀ m n : ℤ, (m : ℚ) / 2 ≤ n / 2 ↔ m ≤ n := fun m n => by
    rw [div_le_div_iff_of_pos_right two_pos, Int.cast_le]
  rw [OneWay, across_stroke, List.isChain_map, List.isChain_map]
  simp only [ge_iff_le, hle, List.isChain_cons_cons, List.isChain_singleton, and_true]
  -- no leg is shorter than the diameter, so the ends only have to be in the order of the corners
  cases right with
  | true =>
    simp only [directed, if_true]
    rcases abs_cases (b - a) with ⟨habs, -⟩ | ⟨habs, -⟩ <;> omega
  | false =>
    simp only [directed, Bool.false_eq_true, if_false]
    rcases abs_cases (b - a) with ⟨habs, -⟩ | ⟨habs, -⟩ <;> omega

end

end Orthogonal

end ErCanvas
