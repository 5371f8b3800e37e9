import ErCanvas.Connector.Orthogonal
import ErCanvas.Proofs.Number.Order
import ErCanvas.Proofs.Path.Bends

/-! # Paths that can be drawn

A coordinate can be computed with, and written into a path, if it is a floating-point number or a whole
number that is not too large for one. Between two points of moderate size at the heights of rows, the
direct line can always be drawn, and it begins and ends at the points themselves.

* `Point.Plain`: the points with such coordinates.
* `comparable_of_plain`, `exists_svg`: paths through them can be smoothed and written.
* `Point.AtRow`: the ends of lines.
* `Orthogonal.exists_points`, `exists_path`: the direct line. -/

namespace ErCanvas

namespace Number

variable {x y : Number}

/-- The number is a floating-point number, or a whole one that is not too large for one. -/
def Plain : Number → Prop
  | int n => |n| < wholeLimit
  | float z => z.Settled

theorem Plain.converts (h : x.Plain) : x.Converts := by
  cases x with
  | int n => exact converts_int h
  | float z => exact converts_float z

theorem Converts.exists_sub (hx : x.Converts) (hy : y.Converts) : ∃ d, x.sub y = .ok d := by
  cases x with
  | float z =>
    obtain ⟨u, hu⟩ := exists_float_combine hy
    exact ⟨_, hu⟩
  | int n =>
    cases y with
    | int m => exact ⟨_, rfl⟩
    | float z =>
      obtain ⟨u, hu⟩ := exists_combine_float hx
      exact ⟨_, hu⟩

end Number

/-- Both coordinates of the point are floating-point numbers, or whole ones that are not too large. -/
def Point.Plain (p : Point) : Prop := ∃ x y, p = ⟨.num x, .num y⟩ ∧ x.Plain ∧ y.Plain

namespace Path

open Number

variable {points : List Point} {p : Point} {x : Number}

/-- Points with plain coordinates can be compared. -/
theorem comparable_of_plain (h : ∀ p ∈ points, p.Plain) : Comparable points := by
  have hdirection : ∀ {x y : Number}, x.Plain → y.Plain →
      ∃ d, direction (.num x) (.num y) = .ok d := fun hx hy => by
    obtain ⟨d, hd⟩ := hy.converts.exists_sub hx.converts
    exact ⟨d.sign, Outcome.bind_eq_ok.2 ⟨_, rfl, Outcome.bind_eq_ok.2 ⟨_, rfl, Outcome.bind_eq_ok.2
      ⟨d, hd, rfl⟩⟩⟩⟩
  intro p hp q hq
  obtain ⟨x, y, rfl, hx, hy⟩ := h p hp
  obtain ⟨x', y', rfl, hx', hy'⟩ := h q hq
  exact ⟨hdirection hx hx', hdirection hy hy'⟩

theorem exists_computed (h : x.Converts) : ∃ text, computed x = .ok text := by
  obtain ⟨z, hz⟩ := h
  have heq : computed x = x.toBinary64 >>= fun z => .ok (numberText z) := rfl
  exact ⟨_, by rw [heq, hz]; rfl⟩

theorem exists_command (letter : String) (h : p.Plain) : ∃ text, command letter p = .ok text := by
  obtain ⟨x, y, rfl, hx, hy⟩ := h
  obtain ⟨a, ha⟩ := exists_computed hx.converts
  obtain ⟨b, hb⟩ := exists_computed hy.converts
  have heq : command letter ⟨.num x, .num y⟩ = computed x >>= fun a => computed y >>= fun b =>
      .ok (letter ++ " " ++ a ++ " " ++ b) := rfl
  exact ⟨_, by rw [heq, ha, Outcome.ok_bind, hb]; rfl⟩

/-- A path through points with plain coordinates can be written. -/
theorem exists_svg (h : ∀ p ∈ points, p.Plain) : ∃ text, svg points = .ok text := by
  cases points with
  | nil => exact ⟨_, rfl⟩
  | cons first rest =>
    obtain ⟨hfirst, hrest⟩ := List.forall_mem_cons.1 h
    obtain ⟨move, hmove⟩ := exists_command "M" hfirst
    obtain ⟨lines, hlines⟩ := Outcome.exists_mapM fun p hp => exists_command "L" (hrest p hp)
    exact ⟨_, by rw [svg, hmove, Outcome.ok_bind, hlines]; rfl⟩

end Path

/-! ### Ends of lines -/

/-- The point stands at the height of a row: a whole number of moderate size beside a floating-point
one. -/
def Point.AtRow (p : Point) : Prop :=
  ∃ (a : ℤ) (y : Binary64), p = ⟨.int a, .num (.float y)⟩ ∧ |a| ≤ 2 ^ 51 ∧ y.Settled ∧
    y.Within (2 ^ 71)

theorem Number.lt_wholeLimit {n : ℤ} (h : |n| ≤ 2 ^ 80) : |n| < wholeLimit := by
  have hpow : ∀ a b : ℕ, 81 ≤ a → a = b + 54 → (2 : ℤ) ^ 80 < 2 ^ a - 2 ^ b := by
    rintro _ b ha rfl
    have hb : (2 : ℤ) ^ 27 ≤ 2 ^ b := pow_le_pow_right₀ (by norm_num) (by omega)
    rw [pow_add]
    linarith
  exact h.trans_lt (hpow 1024 970 (by norm_num) rfl)

theorem Point.AtRow.plain {p : Point} (h : p.AtRow) : p.Plain := by
  obtain ⟨a, y, rfl, ha, hy, -⟩ := h
  exact ⟨.int a, .float y, rfl, Number.lt_wholeLimit (ha.trans (by norm_num)), hy⟩

/-! ### Direct lines -/

namespace Orthogonal

open Number

variable {start finish : Point} {a b : ℤ} {u v : Binary64}

/-- The middle of two moderate whole numbers needs no rounding. -/
theorem settled_middle (ha : |a| ≤ 2 ^ 51) (hb : |b| ≤ 2 ^ 51) :
    (Binary64.num ((a + b : ℤ) / 2)).Settled := by
  have ha := abs_le.1 ha
  have hb := abs_le.1 hb
  exact Binary64.ofRat_half (by omega)

theorem middle_eq (ha : |a| ≤ 2 ^ 51) (hb : |b| ≤ 2 ^ 51) :
    middle (.int a) (.int b) = .ok (.float (.num ((a + b : ℤ) / 2))) := by
  have hhalf : Binary64.ofRat ((a + b : ℤ) / 2) = .num ((a + b : ℤ) / 2) := settled_middle ha hb
  have heq : middle (.int a) (.int b) = (ofRat? (((a + b : ℤ) : ℚ) / (2 : ℤ))).map .float := rfl
  rw [heq, Int.cast_ofNat, ofRat?, hhalf]
  rfl

/-- **The turning points of the direct line** lead from the one end to the other. -/
theorem exists_points (hs : start.AtRow) (hf : finish.AtRow) :
    ∃ out, points start finish = .ok out ∧ (∀ p ∈ out, p.Plain) ∧ out.head? = some start ∧
      out.getLast? = some finish := by
  have hstart := hs.plain
  have hfinish := hf.plain
  obtain ⟨a, u, rfl, ha, hu, -⟩ := hs
  obtain ⟨b, v, rfl, hb, hv, -⟩ := hf
  obtain ⟨m, hm, hsettled⟩ : ∃ m : Binary64, middle (.int a) (.int b) = .ok (.float m) ∧ m.Settled :=
    ⟨_, middle_eq ha hb, settled_middle ha hb⟩
  have hplain : ∀ p ∈ [(⟨.int a, .num (.float u)⟩ : Point), ⟨.num (.float m), .num (.float u)⟩,
      ⟨.num (.float m), .num (.float v)⟩, ⟨.int b, .num (.float v)⟩], p.Plain := by
    simp only [List.forall_mem_cons]
    exact ⟨hstart, ⟨_, _, rfl, hsettled, hu⟩, ⟨_, _, rfl, hsettled, hv⟩, hfinish, nofun⟩
  obtain ⟨out, hout⟩ := (Path.comparable_of_plain hplain).exists_smooth
  obtain ⟨hsub, hhead, hlast⟩ := Path.smooth_sublist hout
  refine ⟨out, ?_, fun p hp => hplain p (hsub.subset hp), hhead, hlast⟩
  rw [points, hm, Outcome.ok_bind, hout]

/-- A radius is the one of all lines or a computed one. -/
def IsRadius (r : Number) : Prop := r = .int 10 ∨ ∃ z, r = .float z

theorem isRadius_smaller {x y : Number} (hx : IsRadius x) (hy : IsRadius y) : IsRadius (smaller x y) := by
  unfold smaller
  split
  · exact hy
  · exact hx

theorem IsRadius.converts {r : Number} (h : IsRadius r) : r.Converts := by
  rcases h with rfl | ⟨z, rfl⟩
  · exact ⟨_, rfl⟩
  · exact converts_float z

theorem IsRadius.exists_mul {r : Number} (h : IsRadius r) {n : ℤ} (hn : |n| ≤ 1) :
    ∃ rise, r.mul (.int n) = .ok rise ∧ rise.Converts := by
  rcases h with rfl | ⟨z, rfl⟩
  · refine ⟨_, rfl, converts_int (lt_wholeLimit ?_)⟩
    rw [abs_mul]
    exact (mul_le_mul_of_nonneg_left hn (abs_nonneg 10)).trans (by norm_num)
  · obtain ⟨y, hy⟩ := exists_float_combine (converts_int (lt_wholeLimit (hn.trans (by norm_num))))
    exact ⟨_, hy, converts_float y⟩

/-- The corners of a direct line can be computed with. -/
theorem exists_corners (ha : |a| ≤ 2 ^ 51) (hb : |b| ≤ 2 ^ 51) (exitRight : Bool) :
    ∃ c, corners (.int a) (.num (.float u)) (.int b) (.num (.float v)) exitRight cornerRadius = .ok c ∧
      c.beforeX.Converts ∧ c.middleX.Converts ∧ c.leaveY.Converts ∧ c.enterY.Converts ∧
      c.afterX.Converts := by
  obtain ⟨m, hm⟩ : ∃ m : Binary64, middle (.int a) (.int b) = .ok (.float m) := ⟨_, middle_eq ha hb⟩
  obtain ⟨d, hd⟩ : ∃ d, (float v).sub (float u) = .ok (float d) := exists_float_combine (converts_float u)
  obtain ⟨h, hh⟩ : ∃ h, (float d).abs.div (.int 2) = .ok (float h) := ⟨_, rfl⟩
  obtain ⟨w, hw⟩ : ∃ w, (float m).sub (.int a) = .ok (float w) :=
    exists_float_combine (converts_int (lt_wholeLimit (ha.trans (by norm_num))))
  -- the radius is the whole number asked for, or has been computed
  obtain ⟨r, hr, hradius⟩ : ∃ r, smaller (smaller (.int 10) (float h)) (float w).abs = r ∧ IsRadius r :=
    ⟨_, rfl, isRadius_smaller (isRadius_smaller (.inl rfl) (.inr ⟨h, rfl⟩)) (.inr ⟨w.abs, rfl⟩)⟩
  obtain ⟨left, hleft⟩ : ∃ z, (float m).sub r = .ok (float z) := exists_float_combine hradius.converts
  obtain ⟨right, hright⟩ : ∃ z, (float m).add r = .ok (float z) := exists_float_combine hradius.converts
  obtain ⟨rise, hrise, hconverts⟩ := hradius.exists_mul (n := if (float u).lt (float v) then 1 else -1)
    (by split <;> norm_num)
  obtain ⟨leave, hleave⟩ : ∃ z, (float u).add rise = .ok (float z) := exists_float_combine hconverts
  obtain ⟨enter, henter⟩ : ∃ z, (float v).sub rise = .ok (float z) := exists_float_combine hconverts
  refine ⟨⟨.float (if exitRight then left else right), .float m, .float leave, .float enter,
    .float (if exitRight then right else left)⟩, ?_, converts_float _, converts_float _,
    converts_float _, converts_float _, converts_float _⟩
  cases exitRight <;>
    simp [corners, cornerRadius, Json.number, hm, hd, hh, hw, hr, hleft, hright, hrise, hleave, henter]

/-- **The direct line can be written.** -/
theorem exists_path (hs : start.AtRow) (hf : finish.AtRow) (exitRight : Bool) :
    ∃ text, path start.x start.y finish.x finish.y exitRight cornerRadius = .ok text := by
  obtain ⟨a, u, rfl, ha, -⟩ := hs
  obtain ⟨b, v, rfl, hb, -⟩ := hf
  obtain ⟨d, hd⟩ : ∃ d, (float v).sub (float u) = .ok (float d) := exists_float_combine (converts_float u)
  obtain ⟨fx, hfx⟩ := Path.exists_computed (converts_int (lt_wholeLimit (ha.trans (by norm_num))))
  obtain ⟨tx, htx⟩ := Path.exists_computed (converts_int (lt_wholeLimit (hb.trans (by norm_num))))
  obtain ⟨fy, hfy⟩ := Path.exists_computed (converts_float u)
  obtain ⟨ty, hty⟩ := Path.exists_computed (converts_float v)
  obtain ⟨c, hc, h1, h2, h3, h4, h5⟩ := exists_corners (u := u) (v := v) ha hb exitRight
  obtain ⟨before, hbefore⟩ := Path.exists_computed h1
  obtain ⟨middle, hmiddle⟩ := Path.exists_computed h2
  obtain ⟨leave, hleave⟩ := Path.exists_computed h3
  obtain ⟨enter, henter⟩ := Path.exists_computed h4
  obtain ⟨after, hafter⟩ := Path.exists_computed h5
  unfold Path.computed at hfx htx hfy hty
  by_cases hflat : (float d).abs.lt (.int 1) = true
  · simp [path, Json.number, hd, hflat, hfx, hfy, htx]
  · simp [path, cornered, Json.number, hd, hflat, hc, hfx, hfy, htx, hty, hbefore, hmiddle, hleave,
      henter, hafter]

end Orthogonal

end ErCanvas
