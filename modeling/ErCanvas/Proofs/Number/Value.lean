import Mathlib.Data.Sign.Basic
import ErCanvas.Proofs.Number.Order

/-! # Values of computed numbers

What an operation on finite numbers gives has the exact result as its value, rounded once; only where this
is zero may it be either zero. A chain of operations whose exact results need no rounding can therefore be
computed in rationals.

* `Binary64.IsValue`: the value of a finite number.
* `IsValue.add`, `sub`, `mul`, `div`: one operation, one rounding.
* `Number.Values`: numbers that can be converted without rounding.
* `Values.combine`, `Values.sign_eq`: operations on them, and their signs. -/

namespace ErCanvas

namespace Binary64

variable {x y : Binary64} {p q r : ℚ}

/-- The number is finite and has the value; zero is the value of both zeros. -/
inductive IsValue : Binary64 → ℚ → Prop
  | num (q : ℚ) : IsValue (num q) q
  | negZero : IsValue negZero 0

theorem isValue_zero (s : Bool) : (zero s).IsValue 0 := by
  cases s with
  | false => exact .num 0
  | true => exact .negZero

theorem IsValue.toRat_eq (h : x.IsValue q) : x.toRat = q := by
  cases h <;> rfl

theorem IsValue.isZero_eq (h : x.IsValue q) : x.isZero = (q == 0) := by
  cases h <;> rfl

theorem IsValue.lt_eq (hx : x.IsValue p) (hy : y.IsValue q) : x.lt y = decide (p < q) := by
  cases hx <;> cases hy <;> rfl

theorem IsValue.neg (h : x.IsValue q) : x.neg.IsValue (-q) := by
  cases h with
  | num =>
    rw [Binary64.neg]
    split
    · rename_i hq
      rw [hq, neg_zero]
      exact .negZero
    · exact .num _
  | negZero =>
    rw [neg_zero]
    exact .num 0

theorem IsValue.abs (h : x.IsValue q) : x.abs.IsValue |q| := by
  cases h with
  | num => exact rat_abs_eq q ▸ .num _
  | negZero => exact abs_zero (α := ℚ) ▸ .num 0

/-! ### Operations -/

theorem eq_zero_of_ofRat (h : ofRat 0 = num r) : r = 0 := by
  rw [ofRat_zero] at h
  exact (Binary64.num.inj h).symm

theorem IsValue.add (hx : x.IsValue p) (hy : y.IsValue q) (h : ofRat (p + q) = .num r) :
    (x.add y).IsValue r := by
  have hadd : x.add y = ofRat (p + q) ∨ x.add y = .negZero ∧ p + q = 0 := by
    cases hx with
    | num => cases hy <;> exact .inl rfl
    | negZero =>
      cases hy with
      | num => exact .inl rfl
      | negZero => exact .inr ⟨rfl, add_zero 0⟩
  rcases hadd with hadd | ⟨hadd, hzero⟩
  · rw [hadd, h]
    exact .num r
  · rw [hzero] at h
    rw [hadd, eq_zero_of_ofRat h]
    exact .negZero

theorem IsValue.sub (hx : x.IsValue p) (hy : y.IsValue q) (h : ofRat (p - q) = .num r) :
    (x.sub y).IsValue r :=
  hx.add hy.neg (sub_eq_add_neg p q ▸ h)

theorem IsValue.mul (hx : x.IsValue p) (hy : y.IsValue q) (h : ofRat (p * q) = .num r) :
    (x.mul y).IsValue r := by
  have hmul : x.mul y = if x.isZero || y.isZero then zero (x.isNegative != y.isNegative)
      else ofRat (x.toRat * y.toRat) := by
    cases hx <;> cases hy <;> rfl
  rw [hmul, hx.toRat_eq, hy.toRat_eq, h, hx.isZero_eq, hy.isZero_eq]
  split
  · rename_i hzero
    have hpq : p * q = 0 := by simpa using hzero
    rw [hpq] at h
    rw [eq_zero_of_ofRat h]
    exact isValue_zero _
  · exact .num r

theorem IsValue.div (hx : x.IsValue p) (hy : y.IsValue q) (hq : q ≠ 0) (h : ofRat (p / q) = .num r) :
    (x.div y).IsValue r := by
  have hdiv : x.div y = if y.isZero then (if x.isZero then nan else infinity (x.isNegative != y.isNegative))
      else if x.isZero then zero (x.isNegative != y.isNegative) else ofRat (x.toRat / y.toRat) := by
    cases hx <;> cases hy <;> rfl
  rw [hdiv, hx.toRat_eq, hy.toRat_eq, h, hx.isZero_eq, hy.isZero_eq, beq_eq_false_iff_ne.2 hq,
    if_neg Bool.false_ne_true]
  split
  · rename_i hzero
    rw [beq_iff_eq.1 hzero, zero_div] at h
    rw [eq_zero_of_ofRat h]
    exact isValue_zero _
  · exact .num r

end Binary64

namespace Number

open Binary64

variable {x y : Number} {z : Binary64} {n : ℤ} {p q r : ℚ}

/-! ### Numbers that can be converted without rounding -/

/-- The number has the value, and so has its floating-point number. -/
structure Values (x : Number) (q : ℚ) : Prop where
  exact : x.exact.IsValue q
  converts : ∃ z, x.toBinary64 = .ok z ∧ z.IsValue q

theorem values_float (h : z.IsValue q) : (float z).Values q := ⟨h, z, rfl, h⟩

theorem values_int (h : ofRat n = num n) : (int n).Values n := ⟨.num _, _, toBinary64_eq h, .num _⟩

theorem values_of_exact (hx : x.exact.IsValue q) (h : ofRat q = num q) : x.Values q := by
  cases x with
  | float z => exact values_float hx
  | int n =>
    obtain ⟨-⟩ := hx
    exact values_int h

theorem lt_eq_exact (x y : Number) : x.lt y = x.exact.lt y.exact := by
  cases x with
  | float z => rfl
  | int m =>
    cases y with
    | float z => rfl
    | int n =>
      have hcast : m < n ↔ (m : ℚ) < n := Int.cast_lt.symm
      exact decide_eq_decide.2 hcast

theorem Values.lt_eq (hx : x.Values p) (hy : y.Values q) : x.lt y = decide (p < q) := by
  rw [lt_eq_exact, hx.exact.lt_eq hy.exact]

/-! ### Operations -/

theorem abs_float_int (n : ℤ) : (float (num n)).abs = float (num (|n| : ℤ)) := by
  rw [Int.cast_abs, ← rat_abs_eq]
  rfl

theorem float_combine {whole : ℤ → ℤ → ℤ} {floating : Binary64 → Binary64 → Binary64} (hx : x.Values q)
    (hfloating : ∀ {w}, IsValue w q → (floating z w).IsValue r) :
    ∃ w, combine whole floating (float z) x = .ok (float w) ∧ w.IsValue r := by
  obtain ⟨u, hu, hvalue⟩ := hx.converts
  refine ⟨floating z u, ?_, hfloating hvalue⟩
  show x.toBinary64 >>= (fun u => .ok (float (floating z u))) = _
  rw [hu, Outcome.ok_bind]

theorem Values.float_add (hz : z.IsValue p) (hx : x.Values q) (h : ofRat (p + q) = num r) :
    ∃ w, (float z).add x = .ok (float w) ∧ w.IsValue r := float_combine hx fun hw => hz.add hw h

theorem Values.float_sub (hz : z.IsValue p) (hx : x.Values q) (h : ofRat (p - q) = num r) :
    ∃ w, (float z).sub x = .ok (float w) ∧ w.IsValue r := float_combine hx fun hw => hz.sub hw h

theorem float_div (hz : z.IsValue p) (hn : ofRat n = num n) (hn0 : n ≠ 0) (h : ofRat (p / n) = num r) :
    ∃ w, (float z).div (int n) = .ok (float w) ∧ w.IsValue r := by
  have hne : (n : ℚ) ≠ 0 := Int.cast_ne_zero.2 hn0
  have hzero : (num n).isZero = false := beq_eq_false_iff_ne.2 hne
  refine ⟨z.div (num n), ?_, hz.div (.num _) hne h⟩
  rw [float_div_int, toBinary64_eq hn, Outcome.ok_bind, hzero, if_neg Bool.false_ne_true]

/-- An operation whose result needs no rounding, on whole numbers and on any others. -/
theorem Values.combine {whole : ℤ → ℤ → ℤ} {floating : Binary64 → Binary64 → Binary64} (hx : x.Values p)
    (hy : y.Values q) (hwhole : ∀ m n : ℤ, p = m → q = n → r = whole m n)
    (hfloating : ∀ {z w}, IsValue z p → IsValue w q → (floating z w).IsValue r) (h : ofRat r = num r) :
    ∃ d, combine whole floating x y = .ok d ∧ d.Values r := by
  cases x with
  | float z =>
    obtain ⟨w, hw, hvalue⟩ := float_combine hy (hfloating hx.exact)
    exact ⟨float w, hw, values_float hvalue⟩
  | int m =>
    obtain ⟨-⟩ := hx.exact
    cases y with
    | float w =>
      obtain ⟨u, hu, hvalue⟩ := hx.converts
      refine ⟨float (floating u w), ?_, values_float (hfloating hvalue hy.exact)⟩
      show (int m).toBinary64 >>= (fun u => .ok (float (floating u w))) = _
      rw [hu, Outcome.ok_bind]
    | int n =>
      obtain ⟨-⟩ := hy.exact
      obtain rfl := hwhole m n rfl rfl
      exact ⟨int (whole m n), rfl, values_int h⟩

/-- The sum, if it needs no rounding. -/
theorem Values.add (hx : x.Values p) (hy : y.Values q) (h : ofRat (p + q) = num (p + q)) :
    ∃ d, x.add y = .ok d ∧ d.Values (p + q) :=
  hx.combine hy (fun m n hm hn => by rw [hm, hn, Int.cast_add]) (fun hz hw => hz.add hw h) h

/-- The difference, if it needs no rounding. -/
theorem Values.sub (hx : x.Values p) (hy : y.Values q) (h : ofRat (p - q) = num (p - q)) :
    ∃ d, x.sub y = .ok d ∧ d.Values (p - q) :=
  hx.combine hy (fun m n hm hn => by rw [hm, hn, Int.cast_sub]) (fun hz hw => hz.sub hw h) h

/-- The product with a whole number, if it needs no rounding. -/
theorem Values.mul_int (hx : x.Values p) (hn : ofRat n = num n) (h : ofRat (p * n) = num (p * n)) :
    ∃ w, x.mul (int n) = .ok w ∧ w.Values (p * n) :=
  hx.combine (values_int hn) (fun m k hm hk => by rw [hm, hk, Int.cast_mul]) (fun hz hw => hz.mul hw h) h

/-- The quotient by a whole number. -/
theorem Values.div_int (hx : x.Values p) (hn : ofRat n = num n) (hn0 : n ≠ 0) (h : ofRat (p / n) = num r) :
    ∃ w, x.div (int n) = .ok (float w) ∧ w.IsValue r := by
  cases x with
  | float z => exact float_div hx.exact hn hn0 h
  | int m =>
    obtain ⟨-⟩ := hx.exact
    refine ⟨num r, ?_, .num r⟩
    rw [div, if_neg hn0, ofRat?, h]
    rfl

/-! ### Signs -/

/-- The sign of a number is that of its value. -/
theorem Values.sign_eq (hx : x.Values q) : x.sign = SignType.sign q := by
  have hzero : (int 0).exact.IsValue 0 := .num 0
  rw [sign, lt_eq_exact, lt_eq_exact, hzero.lt_eq hx.exact, hx.exact.lt_eq hzero]
  rcases lt_trichotomy q 0 with hq | rfl | hq
  · rw [sign_neg hq, if_neg (by simpa using hq.le), if_pos (decide_eq_true hq)]
    rfl
  · rfl
  · rw [sign_pos hq, if_pos (decide_eq_true hq)]
    rfl

end Number

end ErCanvas
