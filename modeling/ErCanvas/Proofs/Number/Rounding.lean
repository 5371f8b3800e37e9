import Mathlib.Algebra.Order.Field.Power
import Mathlib.Algebra.Order.Field.Rat
import Mathlib.Algebra.Order.Group.Unbundled.Int
import Mathlib.Tactic.FieldSimp
import Mathlib.Tactic.Linarith
import Mathlib.Tactic.Positivity
import Mathlib.Tactic.Push
import Mathlib.Tactic.Ring
import Mathlib.Tactic.NormNum
import ErCanvas.Number.Binary64

namespace ErCanvas

theorem rat_abs_eq (q : ℚ) : q.abs = |q| := by
  unfold Rat.abs
  split
  · rw [abs_of_nonneg ‹_›]
  · rw [abs_of_neg (not_le.1 ‹_›)]

namespace Binary64

/-! ### Quotients -/

section

variable {n d : ℕ}

theorem div_eq_add (hd : 0 < d) : (n : ℚ) / d = (n / d : ℕ) + ((n % d : ℕ) : ℚ) / d := by
  have hd' : (d : ℚ) ≠ 0 := by positivity
  have h : (n : ℚ) = d * (n / d : ℕ) + (n % d : ℕ) := by exact_mod_cast (Nat.div_add_mod n d).symm
  rw [eq_comm, add_div_eq_mul_add_div _ _ hd', h, mul_comm]

/-- A rounded quotient is at most a half away. -/
theorem abs_sub_roundQuotient (hd : 0 < d) : |(n : ℚ) / d - roundQuotient n d| ≤ 1 / 2 := by
  have hd' : (0 : ℚ) < d := by exact_mod_cast hd
  have hr : ((n % d : ℕ) : ℚ) / d < 1 := by
    rw [div_lt_one hd']; exact_mod_cast Nat.mod_lt n hd
  have hr0 : (0 : ℚ) ≤ ((n % d : ℕ) : ℚ) / d := by positivity
  rw [div_eq_add hd, abs_le]
  unfold roundQuotient
  simp only
  split
  · rename_i h
    have h2 : 2 * (n % d) ≤ d := by
      simp only [Bool.or_eq_true, decide_eq_true_eq, Bool.and_eq_true, beq_iff_eq] at h
      omega
    have ht : ((n % d : ℕ) : ℚ) / d ≤ 1 / 2 := by
      rw [div_le_div_iff₀ hd' (by norm_num)]
      exact_mod_cast (by omega : (n % d) * 2 ≤ 1 * d)
    constructor <;> linarith
  · rename_i h
    have h2 : d ≤ 2 * (n % d) := by
      simp only [Bool.or_eq_true, decide_eq_true_eq, not_or] at h
      omega
    have ht : 1 / 2 ≤ ((n % d : ℕ) : ℚ) / d := by
      rw [div_le_div_iff₀ (by norm_num) hd']
      exact_mod_cast (by omega : 1 * d ≤ (n % d) * 2)
    push_cast
    constructor <;> linarith

/-- A half goes to the even neighbour. -/
theorem even_roundQuotient {j : ℕ} (hd : 0 < d) (h : (n : ℚ) / d = j + 1 / 2) :
    Even (roundQuotient n d) := by
  have hd' : (d : ℚ) ≠ 0 := by positivity
  have h2 : 2 * n = 2 * (d * j) + d := by
    have hn : (n : ℚ) = (j + 1 / 2) * d := by rw [← h, div_mul_cancel₀ _ hd']
    have hn : 2 * (n : ℚ) = 2 * (d * j) + d := by rw [hn]; ring
    exact_mod_cast hn
  have hq : n / d = j :=
    Nat.div_eq_of_lt_le (by rw [mul_comm]; omega) (by rw [mul_comm, mul_add]; omega)
  have hr : 2 * (n % d) = d := by
    have := Nat.div_add_mod n d
    rw [hq] at this
    omega
  unfold roundQuotient
  simp only [hq, hr]
  rcases Nat.mod_two_eq_zero_or_one j with hj | hj
  · simp [hj, Nat.even_iff]
  · simp [hj, Nat.even_iff]; omega

end

/-! ### Powers of two -/

theorem two_zpow_pos (e : ℤ) : (0 : ℚ) < 2 ^ e := by positivity

theorem lt_of_two_zpow {a b : ℤ} {q : ℚ} (h1 : 2 ^ a ≤ q) (h2 : q < 2 ^ b) : a < b :=
  (zpow_lt_zpow_iff_right₀ (by norm_num : (1 : ℚ) < 2)).1 (h1.trans_lt h2)

theorem natCast_pow_two (k : ℕ) : ((Nat.pow 2 k : ℕ) : ℚ) = 2 ^ (k : ℤ) := by
  rw [Nat.pow_eq, Nat.cast_pow, zpow_natCast]; rfl

theorem natPow_eq_zpow {e : ℤ} (he : 0 ≤ e) : ((Nat.pow 2 e.toNat : ℕ) : ℚ) = 2 ^ e := by
  rw [natCast_pow_two, Int.toNat_of_nonneg he]

theorem natPow_neg_eq_zpow {e : ℤ} (he : e < 0) :
    ((Nat.pow 2 (-e).toNat : ℕ) : ℚ) = (2 ^ e)⁻¹ := by
  rw [natPow_eq_zpow (by omega), zpow_neg]

/-! ### Places -/

section

variable {n d : ℕ}

theorem log2_bounds (hn : 0 < n) :
    (2 : ℚ) ^ (Nat.log2 n : ℤ) ≤ n ∧ (n : ℚ) < 2 ^ (Nat.log2 n + 1 : ℤ) := by
  constructor
  · exact_mod_cast Nat.log2_self_le hn.ne'
  · exact_mod_cast Nat.lt_log2_self

/-- The first digits of a quotient are those of its terms, or one place behind. -/
theorem log2_sub_bounds (hn : 0 < n) (hd : 0 < d) :
    (2 : ℚ) ^ ((Nat.log2 n : ℤ) - Nat.log2 d - 1) ≤ n / d ∧
      (n : ℚ) / d < 2 ^ ((Nat.log2 n : ℤ) - Nat.log2 d + 1) := by
  have hd' : (0 : ℚ) < d := by exact_mod_cast hd
  obtain ⟨hn1, hn2⟩ := log2_bounds hn
  obtain ⟨hd1, hd2⟩ := log2_bounds hd
  constructor
  · rw [le_div_iff₀ hd']
    calc (2 : ℚ) ^ ((Nat.log2 n : ℤ) - Nat.log2 d - 1) * d
        ≤ 2 ^ ((Nat.log2 n : ℤ) - Nat.log2 d - 1) * 2 ^ (Nat.log2 d + 1 : ℤ) := by gcongr
      _ = 2 ^ (Nat.log2 n : ℤ) := by rw [← zpow_add₀ (by norm_num)]; congr 1; omega
      _ ≤ n := hn1
  · rw [div_lt_iff₀ hd']
    calc (n : ℚ) < 2 ^ (Nat.log2 n + 1 : ℤ) := hn2
      _ = 2 ^ ((Nat.log2 n : ℤ) - Nat.log2 d + 1) * 2 ^ (Nat.log2 d : ℤ) := by
        rw [← zpow_add₀ (by norm_num)]; congr 1; omega
      _ ≤ 2 ^ ((Nat.log2 n : ℤ) - Nat.log2 d + 1) * d := by gcongr

/-- The greatest power of two that is not above a quotient. -/
theorem floorLog2_bounds (hn : 0 < n) (hd : 0 < d) :
    (2 : ℚ) ^ floorLog2 n d ≤ n / d ∧ (n : ℚ) / d < 2 ^ (floorLog2 n d + 1) := by
  have hd' : (0 : ℚ) < d := by exact_mod_cast hd
  obtain ⟨hlow, hhigh⟩ := log2_sub_bounds hn hd
  set e : ℤ := Nat.log2 n - Nat.log2 d with he
  have hbelow : (if 0 ≤ e then n < d * Nat.pow 2 e.toNat else n * Nat.pow 2 (-e).toNat < d) ↔
      (n : ℚ) / d < 2 ^ e := by
    rw [div_lt_iff₀ hd', mul_comm _ (d : ℚ)]
    split
    · rename_i h
      rw [← natPow_eq_zpow h]; exact_mod_cast Iff.rfl
    · rename_i h
      rw [← div_lt_iff₀ (two_zpow_pos e), div_eq_mul_inv, ← natPow_neg_eq_zpow (not_le.1 h)]
      exact_mod_cast Iff.rfl
  unfold floorLog2
  simp only [← he, hbelow]
  split
  · rename_i h
    exact ⟨hlow, by rwa [sub_add_cancel]⟩
  · rename_i h
    exact ⟨not_lt.1 h, hhigh⟩

/-- The multiple of `2 ^ e` that a quotient is rounded to. -/
def multipleAt (e : ℤ) (n d : ℕ) : ℕ :=
  if 0 ≤ e then roundQuotient n (d * Nat.pow 2 e.toNat)
  else roundQuotient (n * Nat.pow 2 (-e).toNat) d

theorem roundAt_eq (e : ℤ) (n d : ℕ) : roundAt e n d = multipleAt e n d * 2 ^ e := by
  unfold roundAt multipleAt
  split
  · rename_i he
    rw [Nat.cast_mul, natPow_eq_zpow he]
  · rename_i he
    rw [Rat.mkRat_eq_div, Int.cast_natCast, natPow_neg_eq_zpow (not_le.1 he), div_inv_eq_mul]

/-- The multiple is a quotient that has been rounded. -/
theorem multipleAt_eq (e : ℤ) (hd : 0 < d) : ∃ n' d' : ℕ, 0 < d' ∧
    (n : ℚ) / d / 2 ^ e = (n' : ℚ) / d' ∧ multipleAt e n d = roundQuotient n' d' := by
  unfold multipleAt
  split
  · rename_i he
    have hp : 0 < Nat.pow 2 e.toNat := Nat.pow_pos (by decide)
    refine ⟨n, d * Nat.pow 2 e.toNat, Nat.mul_pos hd hp, ?_, rfl⟩
    rw [Nat.cast_mul, natPow_eq_zpow he, ← div_div]
  · rename_i he
    refine ⟨_, _, hd, ?_, rfl⟩
    rw [Nat.cast_mul, natPow_neg_eq_zpow (not_le.1 he), mul_div_right_comm, ← div_eq_mul_inv]

end

/-! ### Rationals -/

/-- The exponent of the place that a positive rational is rounded at. -/
def place (q : ℚ) : ℤ := max (floorLog2 q.num.natAbs q.den - 52) leastExponent

/-- A positive rational, rounded to a multiple of its place. -/
def rounded (q : ℚ) : ℚ := roundMagnitude q.num.natAbs q.den

/-- The rational has at most 53 binary digits and none below the least place. -/
def Fits (q : ℚ) : Prop := ∃ (m : ℕ) (e : ℤ), q = m * 2 ^ e ∧ m ≤ 2 ^ 53 ∧ leastExponent ≤ e

section

variable {q r : ℚ}

theorem natAbs_div_den (hq : 0 < q) : ((q.num.natAbs : ℕ) : ℚ) / q.den = q := by
  have h : ((q.num.natAbs : ℕ) : ℤ) = q.num := Int.natAbs_of_nonneg (Rat.num_pos.2 hq).le
  rw [← Int.cast_natCast, h, Rat.num_div_den]

theorem leastExponent_le_place : leastExponent ≤ place q := le_max_right _ _

theorem lt_place (hq : 0 < q) : q < 2 ^ (place q + 53) := by
  have h := (floorLog2_bounds (Int.natAbs_pos.2 (Rat.num_ne_zero.2 hq.ne')) q.den_pos).2
  rw [natAbs_div_den hq] at h
  refine h.trans_le (zpow_le_zpow_right₀ (by norm_num) ?_)
  have := le_max_left (floorLog2 q.num.natAbs q.den - 52) leastExponent
  unfold place; omega

/-- A place above the least one is that of the 53rd digit. -/
theorem place_le (hq : 0 < q) : place q = leastExponent ∨ (2 : ℚ) ^ (place q + 52) ≤ q := by
  have h := (floorLog2_bounds (Int.natAbs_pos.2 (Rat.num_ne_zero.2 hq.ne')) q.den_pos).1
  rw [natAbs_div_den hq] at h
  rcases max_choice (floorLog2 q.num.natAbs q.den - 52) leastExponent with hm | hm
  · right
    have hp : place q + 52 = floorLog2 q.num.natAbs q.den := by unfold place; omega
    rwa [hp]
  · exact .inl hm

theorem place_le_of_lt (hq : 0 < q) {e : ℤ} (he : leastExponent ≤ e) (h : q < 2 ^ (e + 53)) :
    place q ≤ e := by
  rcases place_le hq with hp | hp
  · rwa [hp]
  · have := lt_of_two_zpow hp h
    omega

/-- A positive rational is rounded to the nearest multiple of its place, a half to the even one. -/
theorem rounded_eq (hq : 0 < q) :
    ∃ k : ℕ, rounded q = k * 2 ^ place q ∧ k ≤ 2 ^ 53 ∧ |q / 2 ^ place q - k| ≤ 1 / 2 ∧
      ∀ j : ℕ, q / 2 ^ place q = j + 1 / 2 → Even k := by
  obtain ⟨n, d, hd, hquot, hk⟩ := multipleAt_eq (n := q.num.natAbs) (place q) q.den_pos
  rw [natAbs_div_den hq] at hquot
  have hnear := abs_sub_roundQuotient (n := n) hd
  rw [← hquot, ← hk] at hnear
  refine ⟨multipleAt (place q) q.num.natAbs q.den, roundAt_eq _ _ _, ?_, hnear, fun j hj => ?_⟩
  · have hlt : q / 2 ^ place q < 2 ^ 53 := by
      rw [div_lt_iff₀ (two_zpow_pos _), ← zpow_natCast, ← zpow_add₀ (by norm_num), add_comm]
      exact lt_place hq
    have h : (multipleAt (place q) q.num.natAbs q.den : ℚ) < 2 ^ 53 + 1 := by
      linarith [(abs_le.1 hnear).1]
    have h : multipleAt (place q) q.num.natAbs q.den < 2 ^ 53 + 1 := by exact_mod_cast h
    omega
  · rw [hk]; exact even_roundQuotient hd (hquot ▸ hj)

theorem fits_rounded (hq : 0 < q) : Fits (rounded q) := by
  obtain ⟨k, hk, hle, -⟩ := rounded_eq hq
  exact ⟨k, _, hk, hle, leastExponent_le_place⟩

/-- A rational that fits stands on the grid of its place. -/
theorem Fits.eq_mul (h : Fits q) (hq : 0 < q) : ∃ j : ℕ, q = j * 2 ^ place q := by
  obtain ⟨m, e, rfl, hm, he⟩ := h
  rcases le_or_gt (place (m * 2 ^ e)) e with hle | hgt
  · obtain ⟨t, ht⟩ := Int.le.dest hle
    refine ⟨m * 2 ^ t, ?_⟩
    rw [Nat.cast_mul, Nat.cast_pow, Nat.cast_ofNat, mul_assoc, ← zpow_natCast, ← zpow_add₀ (by norm_num)]
    congr 2; omega
  · -- the digits take up one place too many: there is nothing but the first
    have hpl : (2 : ℚ) ^ (place ((m : ℚ) * 2 ^ e) + 52) ≤ m * 2 ^ e :=
      (place_le hq).resolve_left (by omega)
    have hm' : (m : ℚ) ≤ 2 ^ 53 := by exact_mod_cast hm
    have hle : (2 : ℚ) ^ (place ((m : ℚ) * 2 ^ e) + 52) ≤ 2 ^ (e + 53) := by
      refine hpl.trans ?_
      rw [zpow_add₀ (by norm_num), mul_comm]
      have := two_zpow_pos e
      gcongr
      exact_mod_cast hm
    have hexp := (zpow_le_zpow_iff_right₀ (by norm_num : (1 : ℚ) < 2)).1 hle
    have hp : place ((m : ℚ) * 2 ^ e) = e + 1 := by omega
    rw [hp] at hpl
    have hm53 : (m : ℚ) = 2 ^ 53 := by
      refine le_antisymm hm' ?_
      have h2 : (2 : ℚ) ^ (e + 1 + 52) = 2 ^ 53 * 2 ^ e := by
        rw [← zpow_natCast, ← zpow_add₀ (by norm_num)]; congr 1; push_cast; ring
      rw [h2] at hpl
      exact le_of_mul_le_mul_right hpl (two_zpow_pos e)
    refine ⟨2 ^ 52, ?_⟩
    rw [hp, hm53, zpow_add₀ (by norm_num)]
    push_cast
    ring

/-- Two numbers that are within a half of the same one are equal, if one of them is nearer. -/
theorem eq_of_near {x : ℚ} {j k : ℕ} (hj : |x - j| < 1 / 2) (hk : |x - k| ≤ 1 / 2) : k = j := by
  rw [abs_lt] at hj
  rw [abs_le] at hk
  have h1 : (k : ℚ) < j + 1 := by linarith
  have h2 : (j : ℚ) < k + 1 := by linarith
  have h1 : k < j + 1 := by exact_mod_cast h1
  have h2 : j < k + 1 := by exact_mod_cast h2
  omega

/-- A place of the digits in front is a multiple of one behind it. -/
theorem eq_mul_of_place_le {j : ℕ} {e e' : ℤ} (hq : q = j * 2 ^ e) (he : e' ≤ e) :
    ∃ j' : ℕ, q = j' * 2 ^ e' := by
  obtain ⟨t, ht⟩ := Int.le.dest he
  refine ⟨j * 2 ^ t, ?_⟩
  rw [hq, Nat.cast_mul, Nat.cast_pow, Nat.cast_ofNat, mul_assoc, ← zpow_natCast,
    ← zpow_add₀ (by norm_num)]
  congr 2; omega

/-- **What is near enough to a rational that fits is rounded to it.** -/
theorem Fits.rounded_eq (h : Fits q) (hq : 0 < q) (hr : |r - q| * 2 ^ 54 < q) :
    0 < r ∧ rounded r = q := by
  have hnear := abs_lt.1 ((lt_div_iff₀ (by norm_num)).2 hr)
  have hr0 : 0 < r := by linarith [hnear.1]
  refine ⟨hr0, ?_⟩
  -- the place of `r` is not in front of that of `q`
  have hple : place r ≤ place q := by
    obtain ⟨j, hj⟩ := h.eq_mul hq
    refine place_le_of_lt hr0 leastExponent_le_place ?_
    have hP := two_zpow_pos (place q)
    have hlt := lt_place hq
    rw [zpow_add₀ (by norm_num), mul_comm] at hlt ⊢
    have hj53 : j < 2 ^ 53 := by
      have hjq : (j : ℚ) * 2 ^ place q < 2 ^ (53 : ℤ) * 2 ^ place q := by rwa [← hj]
      exact_mod_cast lt_of_mul_lt_mul_right hjq hP.le
    have hj53 : (j : ℚ) + 1 ≤ 2 ^ (53 : ℤ) := by exact_mod_cast hj53
    have hmul := mul_le_mul_of_nonneg_right hj53 hP.le
    norm_num at hlt hmul ⊢
    linarith [hnear.2]
  obtain ⟨j, hj⟩ := h.eq_mul hq
  obtain ⟨j', hj'⟩ := eq_mul_of_place_le hj hple
  obtain ⟨k, hk, -, hkr, -⟩ := Binary64.rounded_eq hr0
  have hP := two_zpow_pos (place r)
  have hlt := lt_place hr0
  rw [zpow_add₀ (by norm_num), mul_comm] at hlt
  have hj53 : j' ≤ 2 ^ 53 := by
    by_contra hc
    have hc : (2 ^ 53 : ℚ) + 1 ≤ j' := by exact_mod_cast not_le.1 hc
    have hmul := mul_le_mul_of_nonneg_right hc hP.le
    rw [← hj'] at hmul
    norm_num at hlt hmul
    linarith [hnear.1]
  have hq53 : q ≤ 2 ^ 53 * 2 ^ place r := by
    rw [hj']
    have : (j' : ℚ) ≤ 2 ^ 53 := by exact_mod_cast hj53
    gcongr
  have hhalf : |r / 2 ^ place r - j'| < 1 / 2 := by
    have hdiv : r / 2 ^ place r - j' = (r - q) / 2 ^ place r := by
      rw [hj', sub_div, mul_div_cancel_right₀ _ hP.ne']
    rw [hdiv, abs_div, abs_of_pos hP, div_lt_iff₀ hP]
    norm_num at hq53 hr
    linarith
  rw [hk, hj', eq_of_near hhalf hkr]

theorem Fits.rounded_self (h : Fits q) (hq : 0 < q) : rounded q = q :=
  (h.rounded_eq hq (by simpa using hq)).2

end

/-! ### Floating-point numbers -/

section

variable {q r : ℚ}

theorem tooLarge_eq : tooLarge = (2 : ℚ) ^ (1024 : ℤ) := by
  have h : ((1024 : ℕ) : ℤ) = 1024 := rfl
  rw [← h, tooLarge]
  generalize 1024 = k
  exact natCast_pow_two k

/-- What `ofRat` keeps as it is fits and is not too large. -/
theorem fits_of_isExact (hq : 0 < q) (h : isExact q = true) : Fits q ∧ q < tooLarge := by
  simp only [isExact, Bool.and_eq_true, Bool.or_eq_true, decide_eq_true_eq, beq_iff_eq] at h
  obtain ⟨hn, hd⟩ := h
  have hden : ∃ k : ℕ, q.den = 2 ^ k ∧ k ≤ 1074 := by
    rcases hd with hd | ⟨hle, hd⟩
    · exact ⟨0, hd, by decide⟩
    · refine ⟨_, hd, ?_⟩
      rw [hd] at hle
      generalize 1074 = t at hle ⊢
      exact (Nat.pow_le_pow_iff_right (by decide)).1 hle
  obtain ⟨k, hk, hk1074⟩ := hden
  have hqk : q = q.num.natAbs * (2 : ℚ) ^ (-(k : ℤ)) := by
    have hc : ((q.den : ℕ) : ℚ) = 2 ^ (k : ℤ) := by rw [hk, zpow_natCast]; push_cast; rfl
    rw [zpow_neg, ← hc, ← div_eq_mul_inv, natAbs_div_den hq]
  refine ⟨⟨_, _, hqk, hn, by unfold leastExponent; omega⟩, ?_⟩
  have hnq : (q.num.natAbs : ℚ) ≤ 2 ^ (53 : ℤ) := by exact_mod_cast hn
  calc q ≤ q.num.natAbs := by
        have h1 : (2 : ℚ) ^ (-(k : ℤ)) ≤ 1 := zpow_le_one_of_nonpos₀ (by norm_num) (by omega)
        nth_rewrite 1 [hqk]
        exact mul_le_of_le_one_right (by positivity) h1
    _ ≤ 2 ^ (53 : ℤ) := hnq
    _ < tooLarge := by
      rw [tooLarge_eq]; exact zpow_lt_zpow_right₀ (by norm_num) (by norm_num)

/-- Where the place of a rational is, seen from that of the greatest numbers. -/
theorem place_cases (hq : 0 < q) :
    (2 : ℚ) ^ place q ≤ 2 ^ (971 : ℤ) / 2 ∨ (2 : ℚ) ^ place q = 2 ^ (971 : ℤ) ∨
      (2 : ℚ) * 2 ^ (971 : ℤ) ≤ 2 ^ place q ∧ 2 ^ 52 * 2 ^ place q ≤ q := by
  have hpow : ∀ a b : ℤ, a ≤ b → (2 : ℚ) ^ a ≤ 2 ^ b := fun a b h =>
    zpow_le_zpow_right₀ (by norm_num) h
  rcases lt_trichotomy (place q) 971 with hp | hp | hp
  · left
    rw [div_eq_mul_inv, ← zpow_sub_one₀ (by norm_num)]
    exact hpow _ _ (by omega)
  · right; left; rw [hp]
  · right; right
    have hlow := (place_le hq).resolve_left (by unfold leastExponent; omega)
    rw [zpow_add₀ (by norm_num), mul_comm] at hlow
    rw [mul_comm, ← zpow_add_one₀ (by norm_num)]
    exact ⟨hpow _ _ (by omega), hlow⟩

/-- **A rational is too large from half a place above the greatest number on.** -/
theorem tooLarge_le_rounded_iff (hq : 0 < q) :
    tooLarge ≤ rounded q ↔ (2 : ℚ) ^ (1024 : ℤ) - 2 ^ (970 : ℤ) ≤ q := by
  obtain ⟨k, hk, hk53, hnear, heven⟩ := rounded_eq hq
  have hlt := lt_place hq
  have hcases := place_cases hq
  have h1024 : (2 : ℚ) ^ (1024 : ℤ) = 2 ^ 53 * 2 ^ (971 : ℤ) := by
    rw [← zpow_natCast, ← zpow_add₀ (by norm_num)]; rfl
  have h970 : (2 : ℚ) ^ (970 : ℤ) = 2 ^ (971 : ℤ) / 2 := by
    rw [div_eq_mul_inv, ← zpow_sub_one₀ (by norm_num)]; rfl
  have hB := two_zpow_pos 971
  have hP := two_zpow_pos (place q)
  have hqP : q = q / 2 ^ place q * 2 ^ place q := (div_mul_cancel₀ _ hP.ne').symm
  rw [zpow_add₀ (by norm_num), mul_comm] at hlt
  rw [abs_le] at hnear
  rw [tooLarge_eq, hk, h1024, h970]
  clear h1024 h970
  generalize q / 2 ^ place q = x at hnear heven hqP
  generalize (2 : ℚ) ^ place q = P at *
  generalize (2 : ℚ) ^ (971 : ℤ) = B at *
  norm_num at hlt hcases ⊢
  have hk53 : (k : ℚ) ≤ 9007199254740992 := by exact_mod_cast hk53
  rcases hcases with hp | rfl | ⟨hp, hlow⟩
  · have := mul_le_mul hk53 hp hP.le (by norm_num)
    constructor <;> intro h <;> linarith
  · constructor
    · intro h
      have hk := le_of_mul_le_mul_right h hP
      have := mul_le_mul_of_nonneg_right (show 9007199254740992 - 1 / 2 ≤ x by linarith) hP.le
      linarith
    · intro h
      have hx : 9007199254740992 - 1 / 2 ≤ x := le_of_mul_le_mul_right (by linarith) hP
      -- half a place below, the multiple would be odd
      have hk : 9007199254740992 ≤ k := by
        by_contra hc
        have hk : k = 9007199254740991 := by
          have : (9007199254740990 : ℚ) < k := by linarith
          have : 9007199254740990 < k := by exact_mod_cast this
          omega
        rw [hk] at hnear heven
        have hodd := heven 9007199254740991 (by push_cast at hnear ⊢; linarith)
        exact absurd hodd (by decide)
      have hk : (9007199254740992 : ℚ) ≤ k := by exact_mod_cast hk
      gcongr
  · have hx : (4503599627370496 : ℚ) ≤ x := le_of_mul_le_mul_right (by linarith) hP
    have hk : 4503599627370496 ≤ k := by
      have : (4503599627370495 : ℚ) < k := by linarith
      have : 4503599627370495 < k := by exact_mod_cast this
      omega
    have hk : (4503599627370496 : ℚ) ≤ k := by exact_mod_cast hk
    have := mul_le_mul hk hp (by linarith) (by linarith)
    constructor <;> intro h <;> linarith

theorem ofRat_of_pos (hq : 0 < q) :
    ofRat q = if tooLarge ≤ rounded q then infinity false else num (rounded q) := by
  unfold ofRat
  split
  · rename_i h
    obtain ⟨hf, hlt⟩ := fits_of_isExact hq h
    rw [hf.rounded_self hq, if_neg (not_le.2 hlt)]
  · have hneg : ¬ q < 0 := not_lt.2 hq.le
    simp only [hneg, decide_false, if_false]
    rfl

theorem ofRat_neg (hq : 0 < q) : ofRat (-q) = (ofRat q).neg := by
  have he : isExact (-q) = isExact q := by
    simp only [isExact, Rat.neg_num, Int.natAbs_neg, Rat.neg_den]
  have hneg : ¬ q < 0 := not_lt.2 hq.le
  unfold ofRat
  rw [he]
  simp only [Rat.neg_num, Int.natAbs_neg, Rat.neg_den, Left.neg_neg_iff, hq, hneg, decide_true,
    decide_false, if_true, if_false]
  split
  · simp [neg, hq.ne']
  · split
    · rfl
    · simp only [neg]

theorem ofRat_zero : ofRat 0 = num 0 := rfl

/-- The rationals that are too large. -/
theorem ofRat_eq_infinity_iff {q : ℚ} :
    (∃ s, ofRat q = infinity s) ↔ (2 : ℚ) ^ (1024 : ℤ) - 2 ^ (970 : ℤ) ≤ |q| := by
  have hpos : ∀ {q : ℚ}, 0 < q → ((∃ s, ofRat q = infinity s) ↔
      (2 : ℚ) ^ (1024 : ℤ) - 2 ^ (970 : ℤ) ≤ q) := by
    intro q hq
    rw [ofRat_of_pos hq, ← tooLarge_le_rounded_iff hq]
    split
    · rename_i h; simp [h]
    · rename_i h; simp [h]
  rcases lt_trichotomy q 0 with hq | rfl | hq
  · have hn := neg_pos.2 hq
    rw [abs_of_neg hq, ← hpos hn, ← neg_neg q, ofRat_neg hn, neg_neg]
    cases ofRat (-q) with
    | infinity s => simp [neg]
    | num r =>
      simp only [neg]
      split <;> simp
    | _ => simp [neg]
  · have hlimit : (0 : ℚ) < 2 ^ (1024 : ℤ) - 2 ^ (970 : ℤ) :=
      sub_pos.2 (zpow_lt_zpow_right₀ (by norm_num) (by norm_num))
    rw [ofRat_zero, abs_zero]
    exact iff_of_false (by simp) (not_le.2 hlimit)
  · rw [abs_of_pos hq, hpos hq]

/-- The value is one of a floating-point number: rounding leaves its rational alone. -/
def Settled : Binary64 → Prop
  | num q => ofRat q = num q
  | _ => True

theorem settled_of_isExact {q : ℚ} (h : isExact q = true) : (num q).Settled := by
  rw [Settled, ofRat, if_pos h]

theorem neg_eq_num {x : Binary64} (hq : q ≠ 0) (h : x.neg = num q) : x = num (-q) := by
  cases x with
  | nan => cases h
  | infinity s => cases h
  | negZero => cases h; exact absurd rfl hq
  | num p =>
    simp only [neg] at h
    split at h
    · cases h
    · cases h; rw [neg_neg]

theorem settled_ofRat_of_pos (hq : 0 < q) : (ofRat q).Settled := by
  rw [ofRat_of_pos hq]
  split
  · trivial
  · rename_i hlt
    have hf := fits_rounded hq
    have h0 : 0 ≤ rounded q := by
      obtain ⟨m, e, hm, -⟩ := hf
      rw [hm]; positivity
    show ofRat (rounded q) = num (rounded q)
    rcases h0.eq_or_lt with h0 | h0
    · rw [← h0]; rfl
    · rw [ofRat_of_pos h0, hf.rounded_self h0, if_neg hlt]

theorem Settled.neg {x : Binary64} (h : x.Settled) : x.neg.Settled := by
  cases x with
  | num q =>
    have h : ofRat q = num q := h
    simp only [Binary64.neg]
    split
    · trivial
    · rename_i hq0
      show ofRat (-q) = num (-q)
      rcases lt_or_gt_of_ne hq0 with hq | hq
      · have hn := ofRat_neg (neg_pos.2 hq)
        rw [neg_neg, h] at hn
        exact neg_eq_num hq0 hn.symm
      · rw [ofRat_neg hq, h, Binary64.neg, if_neg hq0]
  | negZero => exact ofRat_zero
  | _ => trivial

/-- **What has been rounded is left alone by rounding.** -/
theorem settled_ofRat (q : ℚ) : (ofRat q).Settled := by
  rcases lt_trichotomy q 0 with hq | rfl | hq
  · have hn := ofRat_neg (neg_pos.2 hq)
    rw [neg_neg] at hn
    rw [hn]
    exact (settled_ofRat_of_pos (neg_pos.2 hq)).neg
  · exact ofRat_zero
  · exact settled_ofRat_of_pos hq

/-- What is less than half of the least number is rounded to zero. -/
theorem rounded_eq_zero (hq : 0 < q) (h : q < 2 ^ (leastExponent - 1)) : rounded q = 0 := by
  obtain ⟨k, hk, -, hnear, -⟩ := rounded_eq hq
  have hhalf : q / 2 ^ place q < 1 / 2 := by
    rw [div_lt_iff₀ (two_zpow_pos _)]
    refine h.trans_le ?_
    rw [zpow_sub_one₀ (by norm_num), mul_comm, ← one_div]
    gcongr
    · norm_num
    · exact leastExponent_le_place
  have hk1 : (k : ℚ) < 1 := by linarith [(abs_le.1 hnear).1]
  have hk0 : k = 0 := Nat.lt_one_iff.1 (by exact_mod_cast hk1)
  rw [hk, hk0, Nat.cast_zero, zero_mul]

/-- A rational that rounding leaves alone fits and is not too large. -/
theorem fits_of_ofRat (hq : 0 < q) (h : ofRat q = num q) : Fits q ∧ q < tooLarge := by
  rw [ofRat_of_pos hq] at h
  split at h
  · cases h
  · rename_i hlt
    have hq' : rounded q = q := by simpa using h
    rw [hq'] at hlt
    exact ⟨hq' ▸ fits_rounded hq, not_le.1 hlt⟩

/-- What is near enough to a floating-point number is rounded to it. -/
theorem ofRat_eq_of_near (hq : 0 < q) (h : ofRat q = num q) (hr : |r - q| * 2 ^ 54 < q) :
    ofRat r = num q := by
  obtain ⟨hf, hlt⟩ := fits_of_ofRat hq h
  obtain ⟨hr0, hr'⟩ := hf.rounded_eq hq hr
  rw [ofRat_of_pos hr0, hr', if_neg (not_le.2 hlt)]

theorem Fits.least_le (h : Fits q) (hq : 0 < q) : (2 : ℚ) ^ leastExponent ≤ q := by
  obtain ⟨m, e, rfl, -, he⟩ := h
  have hm : 0 < m := by
    rcases Nat.eq_zero_or_pos m with rfl | hm
    · simp at hq
    · exact hm
  have hm : (1 : ℚ) ≤ m := by exact_mod_cast hm
  calc (2 : ℚ) ^ leastExponent ≤ 2 ^ e := zpow_le_zpow_right₀ (by norm_num) he
    _ ≤ m * 2 ^ e := le_mul_of_one_le_left (two_zpow_pos e).le hm

end

end Binary64

end ErCanvas
