import Mathlib.Analysis.Real.Sqrt
import Mathlib.Data.Set.Finite.Lattice
import ErCanvas.Proofs.Number.Order

/-! # Rounded square roots

A square root is rounded to a nearest finite number. The root of a whole number below `2 ^ 52` lies so far
beyond each whole number before it that it is rounded to none of them, and no root is rounded past a whole
number behind it. So the least whole number that is not below the rounded root is the one for the root.

* `Nearest`, `exists_nearest`: what a real number is rounded to.
* `Fits.settled`: a rational of few digits is a finite number.
* `Nearest.ceil_eq`: the rounded root, rounded up. -/

namespace ErCanvas.Binary64

variable {q r : ℚ}

/-! ### Finite numbers -/

/-- A rational of few digits that is not too large is left alone by rounding. -/
theorem Fits.settled (h : Fits q) (hq : 0 < q) (hle : q ≤ 2 ^ (1023 : ℤ)) : (num q).Settled := by
  rw [Settled, ofRat_eq_num_rounded hq hle, h.rounded_self hq]

theorem settled_natCast {n : ℕ} (hn : n ≤ 2 ^ 53) : (num n).Settled := by
  have h := Number.ofRat_intCast (n := n) (by simpa using hn)
  rwa [Int.cast_natCast] at h

/-- Every finite number is a multiple of the least one. -/
theorem Settled.exists_eq_mul (h : (num q).Settled) (hq : 0 ≤ q) : ∃ j : ℕ, q = j * 2 ^ leastExponent := by
  rcases hq.eq_or_lt with rfl | hq
  · exact ⟨0, by rw [Nat.cast_zero, zero_mul]⟩
  · obtain ⟨⟨m, e, hm, -, he⟩, -⟩ := fits_of_ofRat hq h
    exact eq_mul_of_place_le hm he

/-! ### What a real number is rounded to -/

/-- The rational is a finite number, and there is none nearer to the real. -/
structure Nearest (x : ℝ) (r : ℚ) : Prop where
  settled : (num r).Settled
  le : ∀ z : ℚ, (num z).Settled → |x - r| ≤ |x - z|

/-- **Every real number has a nearest finite number**, here for those that are not negative. -/
theorem exists_nearest {x : ℝ} (hx : 0 ≤ x) : ∃ r, Nearest x r := by
  have hzero : (num 0).Settled := ofRat_zero
  set near : Set ℚ := {z | (num z).Settled ∧ |x - z| ≤ x}
  -- what is no farther than zero is a multiple of the least number up to twice the real
  have hfinite : near.Finite := by
    set b := ⌊2 * x / 2 ^ leastExponent⌋₊
    refine ((Set.finite_le_nat b).image fun j : ℕ => (j : ℚ) * 2 ^ leastExponent).subset ?_
    rintro z ⟨hz, hnear⟩
    obtain ⟨hlow, hhigh⟩ := abs_le.1 hnear
    have hz0 : 0 ≤ z := by exact_mod_cast (show (0 : ℝ) ≤ z by linarith)
    obtain ⟨j, rfl⟩ := hz.exists_eq_mul hz0
    refine ⟨j, Nat.le_floor ?_, rfl⟩
    rw [le_div_iff₀ (by positivity)]
    push_cast at hlow
    linarith
  obtain ⟨r, ⟨hr, hnear⟩, hmin⟩ := Set.exists_min_image near (fun z : ℚ => |x - z|) hfinite
    ⟨0, hzero, by rw [Rat.cast_zero, sub_zero, abs_of_nonneg hx]⟩
  refine ⟨r, hr, fun z hz => ?_⟩
  rcases le_or_gt |x - z| x with h | h
  · exact hmin z ⟨hz, h⟩
  · exact hnear.trans h.le

/-! ### Roots of whole numbers -/

section

variable {n k m : ℕ}

/-- A number is not rounded past a finite one. -/
theorem Nearest.le_of_le {x : ℝ} (h : Nearest x r) (hq : (num q).Settled) (hx : x ≤ q) : r ≤ q := by
  by_contra hlt
  have hlt : (q : ℝ) < r := by exact_mod_cast not_le.1 hlt
  have hle := h.le q hq
  rw [abs_sub_comm, abs_of_pos (by linarith), abs_sub_comm, abs_of_nonneg (by linarith)] at hle
  linarith

/-- Beyond a whole number there is a finite number that is nearer to a root beyond it: a root that is not
the whole number itself lies more than half as far beyond it. -/
theorem exists_settled_nearer (hm : m < 2 ^ 26) (hn : m * m < n) :
    ∃ z : ℚ, (num z).Settled ∧ |√n - z| < √n - m := by
  have hfits : Fits (m + 2 ^ (-26 : ℤ)) :=
    ⟨m * 2 ^ 26 + 1, -26, by push_cast; norm_num; ring, by omega, by decide⟩
  have hm' : (m : ℝ) + 1 ≤ 2 ^ 26 := by exact_mod_cast hm
  have hn' : (m : ℝ) * m + 1 ≤ n := by exact_mod_cast hn
  have hpos : (0 : ℚ) < m + 2 ^ (-26 : ℤ) := by positivity
  have hroot : (m : ℝ) + 2 ^ (-27 : ℤ) < √n := by
    rw [Real.lt_sqrt (by positivity)]
    norm_num at hm' ⊢
    linarith
  have hle : (m : ℚ) + 2 ^ (-26 : ℤ) ≤ 2 ^ (1023 : ℤ) := by
    have hm' : (m : ℚ) + 1 ≤ 2 ^ 26 := by exact_mod_cast hm
    refine le_trans ?_ (hm'.trans (two_pow_le_two_zpow (by norm_num)))
    norm_num
  refine ⟨_, hfits.settled hpos hle, abs_lt.2 ?_⟩
  have hstep : (0 : ℝ) < 2 ^ (-27 : ℤ) := by positivity
  have htwice : (2 : ℝ) ^ (-26 : ℤ) = 2 * 2 ^ (-27 : ℤ) := by norm_num
  push_cast
  rw [htwice]
  constructor <;> linarith

/-- A root beyond a whole number is not rounded to it. -/
theorem Nearest.lt_of_lt (h : Nearest √n r) (hm : m < 2 ^ 26) (hn : m * m < n) : m < r := by
  by_contra hle
  have hle : (r : ℝ) ≤ m := by exact_mod_cast not_lt.1 hle
  obtain ⟨z, hz, hnearer⟩ := exists_settled_nearer hm hn
  have hfar : √n - m ≤ |√n - r| := (sub_le_sub_left hle _).trans (le_abs_self _)
  exact absurd (h.le z hz) (not_le.2 (hnearer.trans_le hfar))

/-- **The rounded root of a whole number, rounded up**, is the least whole number whose square is not
below. -/
theorem Nearest.ceil_eq (h : Nearest √n r) (hn0 : 0 < n) (hn : n < 2 ^ 52)
    (hk : IsLeast {k | n ≤ k * k} k) : ⌈r⌉ = k := by
  obtain ⟨m, rfl⟩ : ∃ m, k = m + 1 := by
    refine Nat.exists_eq_succ_of_ne_zero fun h0 => ?_
    have := hk.1
    simp [h0] at this
    omega
  have hsquare : n ≤ (m + 1) * (m + 1) := hk.1
  have hm : m * m < n := not_le.1 fun hle => absurd (hk.2 hle) (by omega)
  have hm26 : m < 2 ^ 26 := Nat.mul_self_lt_mul_self_iff.1 (hm.trans hn)
  have hupper : r ≤ (m + 1 : ℕ) := by
    refine h.le_of_le (settled_natCast (by omega)) ?_
    rw [Real.sqrt_le_iff]
    exact ⟨by positivity, by rw [sq]; exact_mod_cast hsquare⟩
  have hlower := h.lt_of_lt hm26 hm
  rw [Int.ceil_eq_iff]
  push_cast at hupper ⊢
  exact ⟨by linarith, hupper⟩

end

end ErCanvas.Binary64
