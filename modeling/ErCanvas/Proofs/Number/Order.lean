import ErCanvas.Proofs.Number.Bounded

/-! # Rounding keeps the order

A greater number is not rounded to a lesser one: at the same place the multiples are in order, and a
place in front has only greater multiples. Whole numbers are rounded to whole numbers, and halves of whole
numbers of moderate size are not rounded at all.

* `rounded_mono`, `toRat_ofRat_mono`: rounding keeps the order.
* `exists_ofRat_int`: whole numbers stay whole, and near.
* `ofRat_half`, `exists_ofRat_half`: halves of whole numbers.
* `Number.exists_int_add_float`: the sum of whole numbers of which one is a floating-point number. -/

namespace ErCanvas

namespace Binary64

variable {q r b : ℚ} {x : Binary64} {n : ℤ}

/-! ### Positive numbers -/

theorem place_mono (hq : 0 < q) (h : q ≤ r) : place q ≤ place r :=
  place_le_of_lt hq leastExponent_le_place (h.trans_lt (lt_place (hq.trans_le h)))

theorem rounded_le_two_zpow (hq : 0 < q) : rounded q ≤ 2 ^ (place q + 53) := by
  obtain ⟨k, hk, hk53, -⟩ := rounded_eq hq
  have hk53 : (k : ℚ) ≤ 2 ^ (53 : ℤ) := by exact_mod_cast hk53
  rw [hk, zpow_add₀ (by norm_num), mul_comm]
  exact mul_le_mul_of_nonneg_left hk53 (two_zpow_pos _).le

/-- What has all its digits keeps the first one. -/
theorem two_zpow_le_rounded (hq : 0 < q) (h : leastExponent < place q) : 2 ^ (place q + 52) ≤ rounded q := by
  obtain ⟨k, hk, -, hnear, -⟩ := rounded_eq hq
  have hfirst := (place_le hq).resolve_left h.ne'
  rw [zpow_add₀ (by norm_num), mul_comm, ← le_div_iff₀ (two_zpow_pos _)] at hfirst
  have hlow : (2 : ℚ) ^ (52 : ℤ) < k + 1 := by linarith [(abs_le.1 hnear).2]
  have hk52 : 2 ^ 52 ≤ k := Nat.lt_succ_iff.1 (by exact_mod_cast hlow)
  have hk52 : (2 : ℚ) ^ (52 : ℤ) ≤ k := by exact_mod_cast hk52
  rw [hk, zpow_add₀ (by norm_num), mul_comm]
  exact mul_le_mul_of_nonneg_right hk52 (two_zpow_pos _).le

/-- **Rounding keeps the order** of positive numbers. -/
theorem rounded_mono (hq : 0 < q) (h : q ≤ r) : rounded q ≤ rounded r := by
  rcases h.eq_or_lt with rfl | h
  · exact le_rfl
  have hr := hq.trans h
  rcases (place_mono hq h.le).eq_or_lt with heq | hlt
  · -- at the same place the nearest multiples are in order
    obtain ⟨k, hk, -, hnear, -⟩ := rounded_eq hq
    obtain ⟨l, hl, -, hnear', -⟩ := rounded_eq hr
    rw [← heq] at hl hnear'
    have hdiv := div_lt_div_of_pos_right h (two_zpow_pos (place q))
    have hkl : (k : ℚ) < l + 1 := by linarith [(abs_le.1 hnear).1, (abs_le.1 hnear').2]
    have hkl : k ≤ l := Nat.lt_succ_iff.1 (by exact_mod_cast hkl)
    rw [hk, hl]
    exact mul_le_mul_of_nonneg_right (by exact_mod_cast hkl) (two_zpow_pos _).le
  · calc rounded q ≤ 2 ^ (place q + 53) := rounded_le_two_zpow hq
      _ ≤ 2 ^ (place r + 52) := zpow_le_zpow_right₀ (by norm_num) (by omega)
      _ ≤ rounded r := two_zpow_le_rounded hr (leastExponent_le_place.trans_lt hlt)

/-! ### Values -/

theorem toRat_neg (x : Binary64) : x.neg.toRat = -x.toRat := by
  cases x with
  | num q =>
    rw [neg]
    split
    · rename_i h
      rw [h]
      rfl
    · rfl
  | _ => exact neg_zero.symm

theorem toRat_ofRat_neg (hq : 0 < q) : (ofRat (-q)).toRat = -(ofRat q).toRat := by
  rw [ofRat_neg hq, toRat_neg]

theorem toRat_ofRat_nonneg (hq : 0 ≤ q) : 0 ≤ (ofRat q).toRat := by
  rcases hq.eq_or_lt with rfl | hq
  · rw [ofRat_zero]
    exact le_rfl
  · rw [ofRat_of_pos hq]
    split
    · exact le_rfl
    · exact rounded_nonneg hq

theorem toRat_ofRat_mono_of_pos (hq : 0 < q) (h : q ≤ r) (hr : r ≤ 2 ^ (1023 : ℤ)) :
    (ofRat q).toRat ≤ (ofRat r).toRat := by
  rw [ofRat_eq_num_rounded hq (h.trans hr), ofRat_eq_num_rounded (hq.trans_le h) hr]
  exact rounded_mono hq h

/-- **Rounding keeps the order** of numbers that are not too large. -/
theorem toRat_ofRat_mono (h : q ≤ r) (hq : |q| ≤ 2 ^ (1023 : ℤ)) (hr : |r| ≤ 2 ^ (1023 : ℤ)) :
    (ofRat q).toRat ≤ (ofRat r).toRat := by
  rcases lt_or_ge 0 q with hpos | hq0
  · exact toRat_ofRat_mono_of_pos hpos h ((le_abs_self r).trans hr)
  have hlow : -2 ^ (1023 : ℤ) ≤ q := (abs_le.1 hq).1
  rcases lt_or_ge r 0 with hneg | hr0
  · have hmono := toRat_ofRat_mono_of_pos (neg_pos.2 hneg) (neg_le_neg h) (neg_le.1 hlow)
    have hflip := toRat_ofRat_neg (neg_pos.2 hneg)
    have hflip' := toRat_ofRat_neg (neg_pos.2 (h.trans_lt hneg))
    rw [neg_neg] at hflip hflip'
    rw [hflip, hflip']
    exact neg_le_neg hmono
  · refine le_trans ?_ (toRat_ofRat_nonneg hr0)
    have hnonneg := toRat_ofRat_nonneg (neg_nonneg.2 hq0)
    rcases hq0.eq_or_lt with rfl | hneg
    · rw [ofRat_zero]
      exact le_rfl
    · have hflip := toRat_ofRat_neg (neg_pos.2 hneg)
      rw [neg_neg] at hflip
      rw [hflip]
      exact neg_nonpos.2 hnonneg

/-! ### Whole numbers and their halves -/

/-- A number beyond `2 ^ 53` is rounded to a whole one, and by little. -/
theorem exists_rounded_int (hn : 2 ^ 53 < n) :
    ∃ m : ℤ, rounded n = m ∧ 0 < m ∧ |m - n| * 2 ^ 53 ≤ n := by
  have hlow : (2 : ℚ) ^ 53 < n := by exact_mod_cast hn
  have hpos : (0 : ℚ) < n := lt_trans (by norm_num) hlow
  have hone : (1 : ℚ) ≤ n := le_trans (by norm_num) hlow.le
  obtain ⟨k, hk, -⟩ := rounded_eq hpos
  -- the place of the 53rd digit is not behind the point
  have hplace : 53 < place n + 53 :=
    lt_of_two_zpow (a := 53) (by exact_mod_cast hlow.le) (lt_place hpos)
  have hpow : ((Nat.pow 2 (place n).toNat : ℕ) : ℚ) = 2 ^ place n := natPow_eq_zpow (by omega)
  have hm : rounded n = ((k * Nat.pow 2 (place n).toNat : ℕ) : ℤ) := by
    rw [hk, ← hpow]
    push_cast
    rfl
  refine ⟨_, hm, ?_, ?_⟩
  · exact_mod_cast hm ▸ rounded_pos hone
  · have hsub := sub_le_rounded hpos
    have hadd := rounded_le_add hpos
    have hdigits := two_zpow_place_le hone
    have herror : |rounded n - n| * 2 ^ 53 ≤ n := by
      rw [← le_div_iff₀ (by norm_num), abs_le]
      constructor <;> linarith
    rw [hm] at herror
    exact_mod_cast herror

/-- **Whole numbers are rounded to whole numbers** near to them. -/
theorem exists_ofRat_int (hn : |(n : ℚ)| ≤ 2 ^ (1023 : ℤ)) :
    ∃ m : ℤ, ofRat n = num m ∧ |m - n| * 2 ^ 53 ≤ |n| := by
  rcases le_or_gt n.natAbs (2 ^ 53) with hsmall | hlarge
  · exact ⟨n, Number.ofRat_intCast hsmall, by simp⟩
  rcases Int.natAbs_eq n with habs | habs
  · obtain ⟨m, hm, -, hnear⟩ := exists_rounded_int (n := n) (by omega)
    have hpos : (0 : ℚ) < n := by exact_mod_cast (show 0 < n by omega)
    refine ⟨m, ?_, hnear.trans (le_abs_self n)⟩
    rw [ofRat_eq_num_rounded hpos ((le_abs_self _).trans hn), hm]
  · obtain ⟨m, hm, hm0, hnear⟩ := exists_rounded_int (n := -n) (by omega)
    have hpos : (0 : ℚ) < (-n : ℤ) := by exact_mod_cast (show 0 < -n by omega)
    have hle : ((-n : ℤ) : ℚ) ≤ 2 ^ (1023 : ℤ) := by
      rw [Int.cast_neg]
      exact (neg_le_abs _).trans hn
    refine ⟨-m, ?_, ?_⟩
    · have hflip := ofRat_neg hpos
      have hne : (m : ℚ) ≠ 0 := by exact_mod_cast hm0.ne'
      rwa [ofRat_eq_num_rounded hpos hle, hm, neg, if_neg hne, Int.cast_neg, neg_neg, ← Int.cast_neg]
        at hflip
    · rw [sub_neg_eq_add] at hnear
      rw [abs_sub_comm, sub_neg_eq_add, add_comm]
      exact hnear.trans (neg_le_abs n)

/-- Halves of whole numbers of moderate size are not rounded. -/
theorem ofRat_half (hn : n.natAbs ≤ 2 ^ 53) : ofRat (n / 2) = num (n / 2) := by
  have hdiv : (n / 2 : ℚ) = Rat.divInt n 2 := (Rat.divInt_eq_div n 2).symm
  have hden : ((n / 2 : ℚ).den : ℤ) ∣ (2 : ℕ) := hdiv ▸ Rat.den_dvd n 2
  have hnum : (n / 2 : ℚ).num.natAbs ≤ Nat.pow 2 53 := by
    rcases eq_or_ne n 0 with rfl | hne
    · simp
    · have hdvd : (n / 2 : ℚ).num ∣ n := hdiv ▸ Rat.num_dvd n two_ne_zero
      exact (Nat.le_of_dvd (Int.natAbs_pos.2 hne) (Int.natAbs_dvd_natAbs.2 hdvd)).trans hn
  have hexact : isExact (n / 2) = true := by
    rw [isExact, decide_eq_true hnum, Bool.true_and]
    have hle := Nat.le_of_dvd two_pos (Int.natCast_dvd_natCast.1 hden)
    have hpos := (n / 2 : ℚ).den_pos
    rcases (show (n / 2 : ℚ).den = 1 ∨ (n / 2 : ℚ).den = 2 by omega) with h | h
    · rw [h]
      rfl
    · rw [h]
      decide +kernel
  exact if_pos hexact

/-- Halves of whole numbers are rounded to finite numbers other than the negative zero. -/
theorem exists_ofRat_half (hn : |(n : ℚ) / 2| ≤ 2 ^ (1023 : ℤ)) : ∃ z, ofRat (n / 2) = num z := by
  rcases le_or_gt n.natAbs (2 ^ 53) with hsmall | hlarge
  · exact ⟨_, ofRat_half hsmall⟩
  rcases Int.natAbs_eq n with habs | habs
  · have hone : (1 : ℚ) ≤ n / 2 := by
      rw [le_div_iff₀ (by norm_num)]
      exact_mod_cast (show 1 * 2 ≤ n by omega)
    exact ⟨_, ofRat_eq_num_rounded (zero_lt_one.trans_le hone) ((le_abs_self _).trans hn)⟩
  · have hone : (1 : ℚ) ≤ -(n / 2) := by
      rw [← neg_div, le_div_iff₀ (by norm_num)]
      exact_mod_cast (show 1 * 2 ≤ -n by omega)
    have hflip := ofRat_neg (zero_lt_one.trans_le hone)
    rw [neg_neg, ofRat_eq_num_rounded (zero_lt_one.trans_le hone) ((neg_le_abs _).trans hn), neg,
      if_neg (rounded_pos hone).ne'] at hflip
    exact ⟨_, hflip⟩

end Binary64

namespace Number

open Binary64

variable {n k : ℤ}

theorem toBinary64_eq {m : ℚ} (h : ofRat n = num m) : (int n).toBinary64 = .ok (num m) := by
  rw [toBinary64, ofRat?, h]

theorem abs_cast_le (hn : |n| ≤ 2 ^ 82) : |(n : ℚ)| ≤ 2 ^ (1023 : ℤ) := by
  have hn : |(n : ℚ)| ≤ 2 ^ 82 := by exact_mod_cast hn
  exact hn.trans (two_pow_le_two_zpow (by norm_num))

theorem abs_half_le (hn : |n| ≤ 2 ^ 82) : |(n : ℚ) / 2| ≤ 2 ^ (1023 : ℤ) := by
  rw [abs_div, abs_two]
  exact (half_le_self (abs_nonneg _)).trans (abs_cast_le hn)

/-- **The sum of whole numbers** of which one is a floating-point number is whole, and near. -/
theorem exists_int_add_float (hn : |n| ≤ 2 ^ 80) (hk : |k| ≤ 2 ^ 80) :
    ∃ y : ℤ, (int n).add (float (num k)) = .ok (float (num y)) ∧ (num y).Settled ∧
      |y - (n + k)| * 2 ^ 53 ≤ 3 * (|n| + |k|) := by
  obtain ⟨m, hm, hnear⟩ := exists_ofRat_int (abs_cast_le (hn.trans (by norm_num)))
  have hsum := abs_add_le m k
  have hm' := abs_sub_abs_le_abs_sub m n
  have hpos := abs_nonneg (m - n)
  have hmk : |m + k| ≤ 2 ^ 82 := by omega
  obtain ⟨y, hy, hnear'⟩ := exists_ofRat_int (abs_cast_le hmk)
  have hadd : (num m).add (num k) = num y := by
    rw [← hy, Int.cast_add]
    rfl
  refine ⟨y, ?_, hy ▸ settled_ofRat _, ?_⟩
  · show (int n).toBinary64 >>= (fun x => .ok (float (x.add (num k)))) = _
    rw [toBinary64_eq hm, Outcome.ok_bind, hadd]
  · have hstep := abs_sub_le y (m + k) (n + k)
    have hpos' := abs_nonneg k
    rw [add_sub_add_right_eq_sub] at hstep
    omega

end Number

end ErCanvas
