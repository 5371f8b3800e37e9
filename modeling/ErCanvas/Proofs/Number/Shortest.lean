import ErCanvas.Number.Decimal
import ErCanvas.Proofs.Number.Rounding

/-! # Shortest decimals read back

The decimal that a floating-point number is written with is looked for on finer and finer grids, up to
one with sixteen more places than the first digit. There the nearer neighbour of the number is so near
that it is rounded to the number, so the search always finds a decimal that reads back.

* `exists_shortest`: the shortest decimal of a floating-point number reads back.
* `toBinary64_eq`: what a decimal stands for depends only on its value. -/

namespace ErCanvas.Decimal

open Binary64 (ofRat)

variable {q : ℚ} {e : ℤ} {c : ℕ}

/-! ### Scales -/

theorem ten_zpow_pos (e : ℤ) : (0 : ℚ) < 10 ^ e := by positivity

theorem scale_eq (n : ℕ) (e : ℤ) : scale n e = n * (10 : ℚ) ^ e := by
  have h : ∀ k : ℕ, ((Nat.pow 10 k : ℕ) : ℚ) = 10 ^ (k : ℤ) := by
    intro k; rw [Nat.pow_eq, Nat.cast_pow, zpow_natCast]; rfl
  unfold scale
  split
  · rename_i he
    rw [Nat.cast_mul, h, Int.toNat_of_nonneg he]
  · rename_i he
    rw [Rat.mkRat_eq_div, Int.cast_natCast, h, Int.toNat_of_nonneg (by omega), zpow_neg,
      div_inv_eq_mul]

theorem scale_one (e : ℤ) : scale 1 e = (10 : ℚ) ^ e := by rw [scale_eq, Nat.cast_one, one_mul]

/-! ### The first digit -/

/-- The number of decimal digits as it is estimated from the number of binary ones. -/
theorem estimate_bounds : ∀ b < 1100,
    Nat.pow 10 (b * 30103 / 100000) ≤ 5 * Nat.pow 2 b ∧
      Nat.pow 2 b ≤ Nat.pow 10 ((b * 30103 + 99999) / 100000) := by
  decide +kernel

theorem estimate_le {b : ℤ} (h1 : -1100 < b) (h2 : b < 1100) :
    (10 : ℚ) ^ (b * 30103 / 100000 - 1) ≤ 2 ^ (b - 1) := by
  obtain ⟨n, rfl | rfl⟩ := Int.eq_nat_or_neg b
  · obtain ⟨h, -⟩ := estimate_bounds n (by omega)
    have h : (10 : ℚ) ^ (n * 30103 / 100000) ≤ 5 * 2 ^ n := by exact_mod_cast h
    have hc : ((n : ℤ) * 30103 / 100000) = ((n * 30103 / 100000 : ℕ) : ℤ) := by omega
    rw [hc, zpow_sub_one₀ (by norm_num), zpow_sub_one₀ (by norm_num), zpow_natCast, zpow_natCast]
    linarith
  · obtain ⟨-, h⟩ := estimate_bounds n (by omega)
    have h : (2 : ℚ) ^ n ≤ 10 ^ ((n * 30103 + 99999) / 100000) := by exact_mod_cast h
    have hc : (-(n : ℤ) * 30103 / 100000) = -(((n * 30103 + 99999) / 100000 : ℕ) : ℤ) := by omega
    rw [hc, zpow_sub_one₀ (by norm_num), zpow_sub_one₀ (by norm_num), zpow_neg, zpow_neg,
      zpow_natCast, zpow_natCast]
    have hinv := inv_anti₀ (by positivity) h
    have hpos : (0 : ℚ) < (2 ^ n)⁻¹ := by positivity
    linarith

/-- The place of the first digit is not put too far in front. -/
theorem ten_zpow_floorLog10_le (hq : 0 < q) (h : ofRat q = .num q) :
    (10 : ℚ) ^ floorLog10 q ≤ q := by
  unfold floorLog10
  simp only [scale_one]
  split
  · assumption
  · split
    · -- the estimate is at most one place off
      have hnum : 0 < q.num.natAbs := Int.natAbs_pos.2 (Rat.num_ne_zero.2 hq.ne')
      obtain ⟨hlow, hhigh⟩ := Binary64.log2_sub_bounds hnum q.den_pos
      rw [Binary64.natAbs_div_den hq] at hlow hhigh
      obtain ⟨hf, hlt⟩ := Binary64.fits_of_ofRat hq h
      rw [Binary64.tooLarge_eq] at hlt
      have hb1 := Binary64.lt_of_two_zpow hlow hlt
      have hb2 := Binary64.lt_of_two_zpow (hf.least_le hq) hhigh
      unfold Binary64.leastExponent at hb2
      exact (estimate_le (by omega) (by omega)).trans hlow
    · exact not_lt.1 ‹_›

/-! ### The grid -/

theorem ofRat_scale_of_readsBack (h : readsBack q e c = true) : ofRat (scale c e) = .num q := by
  simpa [readsBack] using h

theorem readsBack_of_onGrid? (h : onGrid? q e = some c) : readsBack q e c = true := by
  unfold onGrid? at h
  simp only at h
  split at h
  · rename_i hl hh
    split at h
    · cases h; exact hl
    · cases h; exact hh
  · rename_i hl _; cases h; exact hl
  · rename_i _ hh; cases h; exact hh
  · cases h

/-- On a grid with sixteen more digits than the first one a neighbour of the number reads back. -/
theorem exists_onGrid? (hq : 0 < q) (h : ofRat q = .num q) (he : 10 ^ 16 * (10 : ℚ) ^ e ≤ q) :
    ∃ c, onGrid? q e = some c := by
  have hP := ten_zpow_pos e
  set low := (q / scale 1 e).floor.toNat with hlow
  -- the nearer one of the neighbours is at most half a step away
  have hnear : readsBack q e low = true ∨ readsBack q e (low + 1) = true := by
    have hs : 0 ≤ q / (10 : ℚ) ^ e := by positivity
    have hfloor : ((low : ℕ) : ℤ) = (q / (10 : ℚ) ^ e).floor := by
      rw [hlow, scale_one]
      exact Int.toNat_of_nonneg (Rat.le_floor_iff.2 (by simpa using hs))
    have h1 : (low : ℚ) ≤ q / (10 : ℚ) ^ e := by
      have := Rat.floor_le (q / (10 : ℚ) ^ e)
      rw [← hfloor] at this
      exact_mod_cast this
    have h2 : q / (10 : ℚ) ^ e < low + 1 := by
      have := Rat.lt_floor_add_one (q / (10 : ℚ) ^ e)
      rw [← hfloor] at this
      exact_mod_cast this
    rw [le_div_iff₀ hP] at h1
    rw [div_lt_iff₀ hP] at h2
    have hback : ∀ c : ℕ, |(c : ℚ) * 10 ^ e - q| ≤ 10 ^ e / 2 → readsBack q e c = true := by
      intro c hc
      have hr : |scale c e - q| * 2 ^ 54 < q := by
        rw [scale_eq]; norm_num at he ⊢; linarith
      rw [readsBack, Binary64.ofRat_eq_of_near hq h hr, beq_self_eq_true]
    rcases le_total (q - low * (10 : ℚ) ^ e) (10 ^ e / 2) with hle | hle
    · exact .inl (hback low (abs_le.2 ⟨by linarith, by linarith⟩))
    · refine .inr (hback (low + 1) (abs_le.2 ⟨?_, ?_⟩))
      · push_cast; linarith
      · push_cast; linarith
  unfold onGrid?
  simp only [← hlow]
  split
  · split
    · exact ⟨_, rfl⟩
    · exact ⟨_, rfl⟩
  · exact ⟨_, rfl⟩
  · exact ⟨_, rfl⟩
  · rename_i hl hh
    rw [hl, hh] at hnear
    simp at hnear

/-- **The shortest decimal of a floating-point number reads back.** -/
theorem exists_shortest (hq : 0 < q) (h : ofRat q = .num q) :
    ∃ c e, shortest q = ⟨false, c, e⟩ ∧ ofRat (scale c e) = .num q := by
  have hgrid : ∃ c, onGrid? q (floorLog10 q - (16 : ℕ)) = some c := by
    refine exists_onGrid? hq h ?_
    have hfirst := ten_zpow_floorLog10_le hq h
    rw [zpow_sub₀ (by norm_num), zpow_natCast, mul_div_cancel₀ _ (by norm_num)]
    exact hfirst
  unfold shortest
  simp only
  split
  · rename_i c e hfind
    obtain ⟨n, -, hn⟩ := List.exists_of_findSome?_eq_some hfind
    obtain ⟨c', hc', hpair⟩ := Option.map_eq_some_iff.1 hn
    cases hpair
    exact ⟨_, _, rfl, ofRat_scale_of_readsBack (readsBack_of_onGrid? hc')⟩
  · rename_i hfind
    obtain ⟨c, hc⟩ := hgrid
    have hnone := List.findSome?_eq_none_iff.1 hfind 16 (by decide)
    rw [hc] at hnone
    cases hnone

/-! ### Decimals as floating-point numbers -/

theorem lt_ten_pow_digitCount (c : ℕ) : c < 10 ^ digitCount c :=
  (Nat.length_toDigits_le_iff (by decide) Nat.length_toDigits_pos).1 le_rfl

theorem ten_pow_le_of_pos (hc : 0 < c) : 10 ^ (digitCount c - 1) ≤ c := by
  by_contra h
  have h := not_le.1 h
  rcases Nat.eq_zero_or_pos (digitCount c - 1) with h0 | h0
  · rw [h0] at h; omega
  · have := (Nat.length_toDigits_le_iff (by decide) h0).2 h
    have hpos : 0 < digitCount c := Nat.length_toDigits_pos
    unfold digitCount at *
    omega

/-- The first digit of a decimal stands where its exponent and the number of its digits put it. -/
theorem scale_bounds (hc : 0 < c) (e : ℤ) : (10 : ℚ) ^ (e + digitCount c - 1) ≤ scale c e ∧
    scale c e < (10 : ℚ) ^ (e + digitCount c) := by
  have hpos : 1 ≤ digitCount c := Nat.length_toDigits_pos
  have h1 : (10 : ℚ) ^ (digitCount c - 1) ≤ c := by exact_mod_cast ten_pow_le_of_pos hc
  have h2 : (c : ℚ) < 10 ^ digitCount c := by exact_mod_cast lt_ten_pow_digitCount c
  have hP := ten_zpow_pos e
  rw [scale_eq, add_sub_assoc, zpow_add₀ (by norm_num), zpow_add₀ (by norm_num),
    mul_comm _ ((10 : ℚ) ^ e)]
  have hcast : ((digitCount c : ℤ) - 1) = ((digitCount c - 1 : ℕ) : ℤ) := by omega
  rw [hcast, zpow_natCast, zpow_natCast]
  exact ⟨by gcongr, by gcongr⟩

theorem two_pow_le_ten_pow (n : ℕ) : (2 : ℚ) ^ (3 * n) ≤ 10 ^ n := by
  rw [pow_mul]
  gcongr
  norm_num

/-- The first digit of a decimal that is rounded to a finite number other than zero is not far from
the point. -/
theorem near_place (hc : 0 < c) (hq : 0 < q) (h : ofRat (scale c e) = .num q) :
    -farPlace ≤ e + digitCount c ∧ e + digitCount c ≤ farPlace := by
  obtain ⟨hlow, hhigh⟩ := scale_bounds hc e
  have hr : 0 < scale c e := (ten_zpow_pos _).trans_le hlow
  rw [Binary64.ofRat_of_pos hr] at h
  split at h
  · cases h
  · rename_i hfits
    have hrq : Binary64.rounded (scale c e) = q := by simpa using h
    unfold farPlace
    constructor
    · by_contra hp
      refine hq.ne (hrq ▸ Binary64.rounded_eq_zero hr (hhigh.trans_le ?_)).symm
      calc (10 : ℚ) ^ (e + digitCount c) ≤ 10 ^ (-(400 : ℕ) : ℤ) :=
            zpow_le_zpow_right₀ (by norm_num) (by omega)
        _ ≤ 2 ^ (-((3 * 400 : ℕ) : ℤ)) := by
            rw [zpow_neg, zpow_neg, zpow_natCast, zpow_natCast]
            exact inv_anti₀ (by positivity) (two_pow_le_ten_pow 400)
        _ ≤ 2 ^ (Binary64.leastExponent - 1) :=
            zpow_le_zpow_right₀ (by norm_num) (by decide)
    · by_contra hp
      rw [Binary64.tooLarge_le_rounded_iff hr, not_le] at hfits
      refine absurd ((hlow.trans_lt hfits).trans_le ?_) (lt_irrefl _)
      calc (2 : ℚ) ^ (1024 : ℤ) - 2 ^ (970 : ℤ) ≤ 2 ^ (1024 : ℤ) :=
            sub_le_self _ (Binary64.two_zpow_pos _).le
        _ ≤ 2 ^ ((3 * 400 : ℕ) : ℤ) := zpow_le_zpow_right₀ (by norm_num) (by decide)
        _ ≤ 10 ^ ((400 : ℕ) : ℤ) := by
            rw [zpow_natCast, zpow_natCast]; exact two_pow_le_ten_pow 400
        _ ≤ 10 ^ (e + digitCount c - 1) := zpow_le_zpow_right₀ (by norm_num) (by omega)

theorem coefficient_pos (hq : 0 < q) (h : ofRat (scale c e) = .num q) : 0 < c := by
  rcases Nat.eq_zero_or_pos c with rfl | hc
  · rw [scale_eq, Nat.cast_zero, zero_mul, Binary64.ofRat_zero] at h
    cases h; exact absurd hq (lt_irrefl 0)
  · exact hc

/-- A decimal whose magnitude is rounded to a positive number stands for that number, with its sign. -/
theorem toBinary64_eq (negative : Bool) (hq : 0 < q) (h : ofRat (scale c e) = .num q) :
    toBinary64 ⟨negative, c, e⟩ = .num (if negative then -q else q) := by
  have hc := coefficient_pos hq h
  obtain ⟨h1, h2⟩ := near_place hc hq h
  have hr : 0 < scale c e := (ten_zpow_pos _).trans_le (scale_bounds hc e).1
  have hx : ofRat (if negative then -scale c e else scale c e) =
      .num (if negative then -q else q) := by
    cases negative with
    | false => exact h
    | true => simp only [if_true, Binary64.ofRat_neg hr, h, Binary64.neg, if_neg hq.ne']
  have hz : (if negative then -q else q) ≠ 0 := by cases negative <;> simp [hq.ne']
  have hzero : (c = 0 || e + digitCount c < -farPlace) = false := by
    simp only [Bool.or_eq_false_iff, decide_eq_false_iff_not, not_lt]
    exact ⟨hc.ne', h1⟩
  unfold toBinary64
  simp only [hzero, hx, Binary64.isZero, beq_eq_false_iff_ne.2 hz, if_neg (not_lt.2 h2)]
  rfl

/-- A decimal stands for a floating-point number. -/
theorem settled_toBinary64 (d : Decimal) : d.toBinary64.Settled := by
  have hzero : ∀ s, (Binary64.zero s).Settled := by
    intro s; cases s
    · exact Binary64.ofRat_zero
    · trivial
  unfold toBinary64
  simp only
  split
  · exact hzero _
  · split
    · trivial
    · generalize (if d.negative then -scale d.coefficient d.exponent
        else scale d.coefficient d.exponent) = r
      split
      · exact hzero _
      · exact Binary64.settled_ofRat r

end ErCanvas.Decimal
