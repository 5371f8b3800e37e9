import ErCanvas.Proofs.Number.Sign

/-! # Bounds on rounded numbers

A whole number that is too large has no floating-point number near to it, and what is computed with it
fails. Below that limit nothing fails: rounding at most doubles a number, so that a bound on the operands
of a chain of operations gives one on its result.

* `Number.wholeLimit`, `ofRat?_eq_error`: the whole numbers that are too large.
* `Binary64.Within`, `ofRat_within`: finite numbers of a bounded magnitude, and rounding.
* `Number.Converts`: the numbers with a floating-point number near to them.
* `Number.exists_div`: the quotient of a bounded number by a whole one. -/

namespace ErCanvas

/-! ### Whole numbers that are too large -/

namespace Number

/-- Whole numbers of this magnitude and above have no floating-point number near to them. -/
def wholeLimit : ℤ := 2 ^ 1024 - 2 ^ 970

theorem one_lt_wholeLimit : 1 < wholeLimit := by
  have h : ∀ a b : ℕ, a = b + 54 → (1 : ℤ) < 2 ^ a - 2 ^ b := by
    rintro _ b rfl
    have hb : (1 : ℤ) ≤ 2 ^ b := one_le_pow₀ (by norm_num)
    rw [pow_add]
    linarith
  exact h 1024 970 rfl

theorem cast_wholeLimit : ((wholeLimit : ℤ) : ℚ) = (2 : ℚ) ^ (1024 : ℤ) - 2 ^ (970 : ℤ) := by
  have h : ∀ a b : ℕ, (((2 ^ a - 2 ^ b : ℤ) : ℤ) : ℚ) = (2 : ℚ) ^ (a : ℤ) - 2 ^ (b : ℤ) := by
    intro a b
    rw [zpow_natCast, zpow_natCast]
    push_cast
    rfl
  exact h 1024 970

/-- A whole number is refused as a floating-point number if it is too large. -/
theorem ofRat?_eq_error {n : ℤ} {f : Fault} :
    ofRat? n = .error f ↔ f = .overflow ∧ wholeLimit ≤ |n| := by
  have hlimit : wholeLimit ≤ |n| ↔ ∃ s, Binary64.ofRat n = .infinity s := by
    rw [Binary64.ofRat_eq_infinity_iff, ← cast_wholeLimit]
    exact_mod_cast Iff.rfl
  rw [hlimit, ofRat?]
  split
  · rename_i s h
    simp [h, eq_comm]
  · rename_i hne
    simp only [reduceCtorEq, false_iff, not_and, not_exists]
    exact fun _ s hs => hne s hs

end Number

/-! ### Finite numbers -/

namespace Binary64

variable {q b b' : ℚ} {x : Binary64}

/-- The number is finite and of magnitude at most `b`. -/
def Within (b : ℚ) : Binary64 → Prop
  | num q => |q| ≤ b
  | negZero => 0 ≤ b
  | _ => False

theorem Within.mono (h : x.Within b) (hb : b ≤ b') : x.Within b' := by
  cases x with
  | num q => exact le_trans h hb
  | negZero => exact le_trans h hb
  | _ => exact h

theorem Within.abs_le (h : x.Within b) : |x.toRat| ≤ b := by
  cases x with
  | num q => exact h
  | negZero => exact (abs_zero (α := ℚ)).trans_le h
  | _ => exact h.elim

theorem Within.ne_infinity (h : x.Within b) (s : Bool) : x ≠ infinity s := by
  rintro rfl
  exact h

theorem within_zero (hb : 0 ≤ b) (s : Bool) : (zero s).Within b := by
  cases s with
  | false => exact (abs_zero (α := ℚ)).trans_le hb
  | true => exact hb

theorem Within.neg (h : x.Within b) : x.neg.Within b := by
  cases x with
  | num q =>
    rw [Binary64.neg]
    split
    · exact (abs_nonneg q).trans h
    · exact (abs_neg q).trans_le h
  | negZero => exact (abs_zero (α := ℚ)).trans_le h
  | _ => exact h

/-! ### Rounding -/

theorem rounded_nonneg (hq : 0 < q) : 0 ≤ rounded q := by
  obtain ⟨k, hk, -⟩ := rounded_eq hq
  rw [hk]
  positivity

/-- Rounding adds at most half a place. -/
theorem rounded_le_add (hq : 0 < q) : rounded q ≤ q + 2 ^ place q / 2 := by
  obtain ⟨k, hk, -, hnear, -⟩ := rounded_eq hq
  have hplace := two_zpow_pos (place q)
  have hhigh : (k : ℚ) ≤ q / 2 ^ place q + 1 / 2 := by linarith [(abs_le.1 hnear).1]
  calc rounded q = k * 2 ^ place q := hk
    _ ≤ (q / 2 ^ place q + 1 / 2) * 2 ^ place q := mul_le_mul_of_nonneg_right hhigh hplace.le
    _ = q + 2 ^ place q / 2 := by field_simp

/-- **Rounding at most doubles** a number. -/
theorem rounded_le_two_mul (hq : 0 < q) : rounded q ≤ 2 * q := by
  obtain ⟨k, hk, -, hnear, -⟩ := rounded_eq hq
  have hplace := two_zpow_pos (place q)
  rcases Nat.eq_zero_or_pos k with rfl | hpos
  · rw [hk, Nat.cast_zero, zero_mul]
    positivity
  · have hone : (1 : ℚ) ≤ k := by exact_mod_cast hpos
    have hhigh : (k : ℚ) ≤ 2 * (q / 2 ^ place q) := by linarith [(abs_le.1 hnear).1]
    calc rounded q = k * 2 ^ place q := hk
      _ ≤ 2 * (q / 2 ^ place q) * 2 ^ place q := mul_le_mul_of_nonneg_right hhigh hplace.le
      _ = 2 * q := by field_simp

theorem two_pow_le_two_zpow {k : ℕ} {e : ℤ} (h : (k : ℤ) ≤ e) : (2 : ℚ) ^ k ≤ 2 ^ e := by
  rw [← zpow_natCast]
  exact zpow_le_zpow_right₀ (by norm_num) h

theorem two_zpow_lt_limit : (2 : ℚ) ^ (1023 : ℤ) < 2 ^ (1024 : ℤ) - 2 ^ (970 : ℤ) := by
  have hdouble : (2 : ℚ) ^ (1024 : ℤ) = 2 ^ (1023 : ℤ) * 2 := zpow_add_one₀ (by norm_num) 1023
  have hlt : (2 : ℚ) ^ (970 : ℤ) < 2 ^ (1023 : ℤ) := zpow_lt_zpow_right₀ (by norm_num) (by norm_num)
  rw [hdouble, mul_two, add_sub_assoc]
  exact lt_add_of_pos_right _ (sub_pos.2 hlt)

theorem ofRat_eq_num_rounded (hq : 0 < q) (h : q ≤ 2 ^ (1023 : ℤ)) : ofRat q = num (rounded q) := by
  have hnot : ¬ tooLarge ≤ rounded q := by
    rw [tooLarge_le_rounded_iff hq, not_le]
    exact h.trans_lt two_zpow_lt_limit
  rw [ofRat_of_pos hq, if_neg hnot]

theorem ofRat_within_of_pos (hq : 0 < q) (h : q ≤ b) (hb : b ≤ 2 ^ (1023 : ℤ)) :
    (ofRat q).Within (2 * b) := by
  rw [ofRat_eq_num_rounded hq (h.trans hb)]
  show |rounded q| ≤ 2 * b
  rw [abs_of_nonneg (rounded_nonneg hq)]
  linarith [rounded_le_two_mul hq]

/-- **What is bounded is rounded to something bounded.** -/
theorem ofRat_within (h : |q| ≤ b) (hb : b ≤ 2 ^ (1023 : ℤ)) : (ofRat q).Within (2 * b) := by
  rcases lt_trichotomy q 0 with hq | rfl | hq
  · rw [abs_of_neg hq] at h
    rw [← neg_neg q, ofRat_neg (neg_pos.2 hq)]
    exact (ofRat_within_of_pos (neg_pos.2 hq) h hb).neg
  · rw [abs_zero] at h
    rw [ofRat_zero]
    show |(0 : ℚ)| ≤ 2 * b
    rw [abs_zero]
    positivity
  · exact ofRat_within_of_pos hq ((le_abs_self q).trans h) hb

/-- The sum with a finite number. -/
theorem add_num (h : x.Within b) (q : ℚ) : x.add (num q) = ofRat (x.toRat + q) := by
  cases x with
  | num p => rfl
  | negZero => rfl
  | _ => exact h.elim

/-- The quotient by a positive number. -/
theorem div_num_within {d : ℚ} (hd : 0 < d) (h : x.Within b) (hb : b / d ≤ 2 ^ (1023 : ℤ)) :
    (x.div (num d)).Within (2 * (b / d)) := by
  have hb0 : 0 ≤ b := (abs_nonneg _).trans h.abs_le
  have hbd : 0 ≤ 2 * (b / d) := by positivity
  have hzero : (num d).isZero = false := beq_eq_false_iff_ne.2 hd.ne'
  cases x with
  | num q =>
    have hdiv : |q / d| ≤ b / d := by
      rw [abs_div, abs_of_pos hd]
      exact div_le_div_of_nonneg_right h hd.le
    unfold div
    simp only [hzero, Bool.false_eq_true, if_false]
    split
    · exact within_zero hbd _
    · exact ofRat_within hdiv hb
  | negZero =>
    unfold div
    simp only [hzero, Bool.false_eq_true, if_false]
    exact within_zero hbd _
  | _ => exact h.elim

end Binary64

namespace Number

open Binary64

variable {a b : ℚ} {c n : ℤ} {m x y : Number}

/-! ### Conversion -/

/-- There is a floating-point number near to the number. -/
def Converts (x : Number) : Prop := ∃ z, x.toBinary64 = .ok z

theorem converts_float (z : Binary64) : (float z).Converts := ⟨z, rfl⟩

theorem converts_int (h : |n| < wholeLimit) : (int n).Converts := by
  show ∃ z, ofRat? n = .ok z
  cases heq : ofRat? n with
  | ok z => exact ⟨z, rfl⟩
  | error f => exact absurd (ofRat?_eq_error.1 heq).2 (not_le.2 h)

theorem toBinary64_eq_error (h : wholeLimit ≤ |n|) : (int n).toBinary64 = .error .overflow :=
  ofRat?_eq_error.2 ⟨rfl, h⟩

/-- A whole number of at least one that is not too large is at most halved. -/
theorem exists_toBinary64 (hc : 0 < c) (hlt : c < wholeLimit) :
    ∃ d : ℚ, (int c).toBinary64 = .ok (num d) ∧ (c : ℚ) / 2 ≤ d := by
  have hpos : (0 : ℚ) < c := by exact_mod_cast hc
  have hone : (1 : ℚ) ≤ c := by exact_mod_cast hc
  obtain ⟨z, hz⟩ := converts_int (n := c) (by rwa [abs_of_pos hc])
  have hz' : ofRat? c = .ok z := hz
  rw [ofRat?, ofRat_of_pos hpos] at hz'
  split at hz'
  · rename_i hinf
    split at hinf
    · cases hz'
    · cases hinf
  · split at hz'
    · rename_i hinf hlarge
      exact absurd (if_pos hlarge) (hinf false)
    · obtain rfl := Except.ok.inj hz'
      refine ⟨_, hz, ?_⟩
      have hsub := sub_le_rounded hpos
      have hplace := two_zpow_place_le hone
      have := two_zpow_pos (place (c : ℚ))
      linarith

/-! ### Operations with a floating-point operand -/

section

variable {whole : ℤ → ℤ → ℤ} {floating : Binary64 → Binary64 → Binary64} {z : Binary64}

theorem exists_combine_float (hx : x.Converts) :
    ∃ u, combine whole floating x (float z) = .ok (float u) := by
  obtain ⟨v, hv⟩ := hx
  cases x with
  | int n => exact ⟨floating v z, by simp only [combine, hv]; rfl⟩
  | float w => exact ⟨_, rfl⟩

theorem exists_float_combine (hx : x.Converts) :
    ∃ u, combine whole floating (float z) x = .ok (float u) := by
  obtain ⟨v, hv⟩ := hx
  cases x with
  | int n => exact ⟨floating z v, by simp only [combine, hv]; rfl⟩
  | float w => exact ⟨_, rfl⟩

end

/-! ### Bounded numbers -/

/-- The number is finite and of magnitude at most `b`. -/
def Within (b : ℚ) (x : Number) : Prop := x.exact.Within b

theorem ofRat?_within {q : ℚ} (h : |q| ≤ b) (hb : b ≤ 2 ^ (1023 : ℤ)) :
    ∃ z, ofRat? q = .ok z ∧ z.Within (2 * b) := by
  have hz := ofRat_within h hb
  refine ⟨_, ?_, hz⟩
  unfold ofRat?
  split
  · rename_i s hs
    exact absurd hs (hz.ne_infinity s)
  · rfl

/-- The quotient of whole numbers, the lower one of any size. -/
theorem exists_div_int (hn : |(n : ℚ)| ≤ b) (hb : b ≤ 2 ^ (1023 : ℤ)) (hc : 0 < c) :
    ∃ z, (int n).div (int c) = .ok (float z) ∧ z.Within (2 * (b / c)) := by
  have hpos : (0 : ℚ) < c := by exact_mod_cast hc
  have hone : (1 : ℚ) ≤ c := by exact_mod_cast hc
  have hquot : |(n : ℚ) / c| ≤ b / c := by
    rw [abs_div, abs_of_pos hpos]
    exact div_le_div_of_nonneg_right hn hpos.le
  obtain ⟨z, hz, hwithin⟩ := ofRat?_within hquot ((div_le_self ((abs_nonneg _).trans hn) hone).trans hb)
  refine ⟨z, ?_, hwithin⟩
  rw [div, if_neg hc.ne', hz]
  rfl

theorem float_div_int (z : Binary64) (c : ℤ) : (float z).div (int c) =
    (int c).toBinary64 >>= fun y => if y.isZero then .error .divisionByZero else .ok (float (z.div y)) :=
  rfl

/-- **The quotient by a whole number** that is not too large. -/
theorem exists_div (hx : x.Within b) (hb : b ≤ 2 ^ (1022 : ℤ)) (hc : 0 < c) (hlt : c < wholeLimit) :
    ∃ z, x.div (int c) = .ok (float z) ∧ z.Within (4 * (b / c)) := by
  have hpos : (0 : ℚ) < c := by exact_mod_cast hc
  have hone : (1 : ℚ) ≤ c := by exact_mod_cast hc
  have hb0 : 0 ≤ b := (abs_nonneg _).trans hx.abs_le
  have hbc0 : 0 ≤ b / c := by positivity
  have hdouble : (2 : ℚ) ^ (1023 : ℤ) = 2 * 2 ^ (1022 : ℤ) := zpow_one_add₀ (by norm_num) 1022
  cases x with
  | int n =>
    obtain ⟨z, hz, hwithin⟩ := exists_div_int (n := n) hx
      (hb.trans (zpow_le_zpow_right₀ (by norm_num) (by norm_num))) hc
    exact ⟨z, hz, hwithin.mono (by linarith)⟩
  | float w =>
    obtain ⟨d, hd, hle⟩ := exists_toBinary64 hc hlt
    have hd0 : 0 < d := lt_of_lt_of_le (by linarith) hle
    have hbd : b / d ≤ 2 * (b / c) := by
      calc b / d ≤ b / (c / 2) := div_le_div_of_nonneg_left hb0 (by linarith) hle
        _ = 2 * (b / c) := by field_simp
    have hlimit : 2 * (b / c) ≤ 2 ^ (1023 : ℤ) := by
      rw [hdouble]
      exact mul_le_mul_of_nonneg_left ((div_le_self hb0 hone).trans hb) zero_le_two
    have hnz : (num d).isZero = false := beq_eq_false_iff_ne.2 hd0.ne'
    refine ⟨w.div (num d), ?_, (div_num_within hd0 hx (hbd.trans hlimit)).mono (by linarith)⟩
    rw [float_div_int, hd, Outcome.ok_bind, hnz, if_neg Bool.false_ne_true]

end Number

end ErCanvas
