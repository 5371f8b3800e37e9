import ErCanvas.Number.Basic
import ErCanvas.Proofs.Number.Rounding
import ErCanvas.Proofs.Outcome

/-! # Signs of differences

A difference with a floating-point operand is rounded, and so is a whole operand before it. The sign of
the difference of whole values is still the exact one, if the floating-point operands are moderate.

* `Number.sign_ofRat`: rounding keeps the sign of whole values.
* `Number.Rounds`, `toBinary64_int`: a whole number beyond the moderate ones stays beyond them.
* `Number.Has.sign_sub`: the sign of a difference. -/

namespace ErCanvas

namespace Binary64

variable {q r : ℚ}

/-- Rounding takes away at most half a place. -/
theorem sub_le_rounded (hq : 0 < q) : q - 2 ^ place q / 2 ≤ rounded q := by
  obtain ⟨k, hk, -, hnear, -⟩ := rounded_eq hq
  have hplace := two_zpow_pos (place q)
  have hlow : q / 2 ^ place q - 1 / 2 ≤ k := by linarith [(abs_le.1 hnear).2]
  calc q - 2 ^ place q / 2 = (q / 2 ^ place q - 1 / 2) * 2 ^ place q := by field_simp
    _ ≤ k * 2 ^ place q := mul_le_mul_of_nonneg_right hlow hplace.le
    _ = rounded q := hk.symm

/-- The place of a number from one on stands behind its first 53 digits. -/
theorem two_zpow_place_le (hq : 1 ≤ q) : 2 ^ 52 * (2 : ℚ) ^ place q ≤ q := by
  rcases place_le (zero_lt_one.trans_le hq) with hp | hp
  · refine le_trans ?_ hq
    rw [hp, ← zpow_natCast, ← zpow_add₀ (by norm_num)]
    exact zpow_le_one_of_nonpos₀ (by norm_num) (by decide)
  · rwa [zpow_add₀ (by norm_num), mul_comm] at hp

theorem rounded_pos (hq : 1 ≤ q) : 0 < rounded q := by
  have hsub := sub_le_rounded (zero_lt_one.trans_le hq)
  have hplace := two_zpow_place_le hq
  have := two_zpow_pos (place q)
  linarith

/-- What is not below `2 ^ 53` is not rounded to less than the whole number in front of it. -/
theorem le_rounded (hq : 2 ^ 53 ≤ q) : 2 ^ 53 - 1 ≤ rounded q := by
  have hone : 1 ≤ q := le_trans (by norm_num) hq
  have hsub := sub_le_rounded (zero_lt_one.trans_le hone)
  have hplace := two_zpow_place_le hone
  linarith

theorem sub_num (q r : ℚ) : (num q).sub (num r) = ofRat (q - r) := by
  by_cases hr : r = 0
  · subst hr
    rw [sub_zero]
    exact congrArg ofRat (add_zero q)
  · rw [sub, neg, if_neg hr, sub_eq_add_neg]
    rfl

end Binary64

namespace Number

open Binary64

variable {q : ℚ} {a b : ℤ} {x y d : Number}

/-! ### Rounded numbers -/

theorem sign_int (n : ℤ) : (int n).sign = n.sign := by
  unfold sign
  rw [lt_int, lt_int]
  rcases Int.lt_trichotomy n 0 with hn | rfl | hn
  · simp [hn, hn.le, Int.sign_eq_neg_one_of_neg hn]
  · rfl
  · simp [hn, Int.sign_eq_one_of_pos hn]

theorem sign_ofRat_of_one_le (hq : 1 ≤ q) : (float (ofRat q)).sign = 1 := by
  have hlt : (int 0).lt (float (ofRat q)) = true := by
    rw [ofRat_of_pos (zero_lt_one.trans_le hq)]
    split
    · rfl
    · exact decide_eq_true (rounded_pos hq)
  rw [sign, if_pos hlt]

theorem sign_ofRat_of_le_neg_one (hq : q ≤ -1) : (float (ofRat q)).sign = -1 := by
  have hneg : 1 ≤ -q := by linarith
  have hpos : 0 < -q := zero_lt_one.trans_le hneg
  have heq : ofRat q = (ofRat (-q)).neg := by rw [← ofRat_neg hpos, neg_neg]
  rw [heq, ofRat_of_pos hpos]
  split
  · rfl
  · have hr := rounded_pos hneg
    rw [Binary64.neg, if_neg hr.ne']
    have hnot : (int 0).lt (float (num (-rounded (-q)))) = false :=
      decide_eq_false (not_lt.2 (neg_nonpos.2 hr.le))
    have hlt : (float (num (-rounded (-q)))).lt (int 0) = true := decide_eq_true (neg_neg_of_pos hr)
    rw [sign, hnot, if_neg Bool.false_ne_true, if_pos hlt]

/-- Rounding keeps the sign of what is not between minus one and one, and that of zero. -/
theorem sign_ofRat (n : ℤ) : (float (ofRat n)).sign = n.sign := by
  rcases Int.lt_trichotomy n 0 with hn | rfl | hn
  · rw [Int.sign_eq_neg_one_of_neg hn, sign_ofRat_of_le_neg_one]
    exact_mod_cast Int.le_sub_one_of_lt hn
  · rfl
  · rw [Int.sign_eq_one_of_pos hn, sign_ofRat_of_one_le]
    exact_mod_cast hn

/-! ### Whole numbers as floating-point ones -/

/-- The rational is the whole number, or neither of them is moderate. -/
def Rounds (n : ℤ) (q : ℚ) : Prop :=
  q = n ∨ (2 ^ 53 < n ∧ 2 ^ 53 - 1 ≤ q) ∨ n < -2 ^ 53 ∧ q ≤ -(2 ^ 53 - 1)

theorem Rounds.neg {n : ℤ} (h : Rounds n q) : Rounds (-n) (-q) := by
  rcases h with rfl | ⟨hn, hq⟩ | ⟨hn, hq⟩
  · exact .inl (Int.cast_neg n).symm
  · exact .inr (.inr ⟨neg_lt_neg hn, neg_le_neg hq⟩)
  · exact .inr (.inl ⟨lt_neg.1 hn, le_neg.1 hq⟩)

theorem eq_of_ofRat? {x x' : Binary64} (h : ofRat? q = .ok x) (hq : ofRat q = x') :
    x = x' ∧ ∀ s, x ≠ infinity s := by
  rw [ofRat?, hq] at h
  cases x' with
  | infinity s => cases h
  | _ => cases h; exact ⟨rfl, nofun⟩

theorem ofRat_intCast {n : ℤ} (h : n.natAbs ≤ 2 ^ 53) : ofRat n = num n := by
  have hnum : (n : ℚ).num.natAbs ≤ Nat.pow 2 53 := h
  have hexact : isExact n = true := by
    rw [isExact, decide_eq_true hnum]
    rfl
  exact if_pos hexact

/-- The sum with a floating-point number, where nothing is rounded. -/
theorem add_float {m n : ℤ} (hm : m.natAbs ≤ 2 ^ 53) (h : (m + n).natAbs ≤ 2 ^ 53) :
    (int m).add (float (num n)) = .ok (float (num (m + n : ℤ))) := by
  have hleft : (int m).toBinary64 = .ok (num m) := by
    rw [toBinary64, ofRat?, ofRat_intCast hm]
  have hsum : (num m).add (num n) = num (m + n : ℤ) := by
    rw [← ofRat_intCast h, Int.cast_add]
    rfl
  rw [← hsum, add, combine, hleft]
  · rfl
  · exact nofun

/-- A large number is rounded to a large one, if it is not too large. -/
theorem ofRat_large (hq : 2 ^ 53 ≤ q) :
    ofRat q = infinity false ∨ ∃ r, 2 ^ 53 - 1 ≤ r ∧ ofRat q = num r := by
  rw [ofRat_of_pos (lt_of_lt_of_le (by norm_num) hq)]
  split
  · exact .inl rfl
  · exact .inr ⟨_, le_rounded hq, rfl⟩

/-- What a whole number is as a floating-point one. -/
theorem toBinary64_int {n : ℤ} {x : Binary64} (h : (int n).toBinary64 = .ok x) :
    ∃ q, x = num q ∧ Rounds n q := by
  have h : ofRat? n = .ok x := h
  rcases le_or_gt n.natAbs (2 ^ 53) with hn | hn
  · exact ⟨n, (eq_of_ofRat? h (ofRat_intCast hn)).1, .inl rfl⟩
  rcases Int.natAbs_eq n with habs | habs
  · have hlarge : 2 ^ 53 < n := by omega
    rcases ofRat_large (q := n) (by exact_mod_cast hlarge.le) with hr | ⟨r, hle, hr⟩
    · obtain ⟨rfl, hfinite⟩ := eq_of_ofRat? h hr
      exact absurd rfl (hfinite false)
    · exact ⟨r, (eq_of_ofRat? h hr).1, .inr (.inl ⟨hlarge, hle⟩)⟩
  · have hlarge : n < -2 ^ 53 := by omega
    have hneg : (2 : ℚ) ^ 53 ≤ -n := by exact_mod_cast (lt_neg.1 hlarge).le
    have hround : ofRat n = (ofRat (-n)).neg := by
      rw [← ofRat_neg (lt_of_lt_of_le (by norm_num) hneg), neg_neg]
    rcases ofRat_large hneg with hr | ⟨r, hle, hr⟩
    · rw [hr] at hround
      obtain ⟨rfl, hfinite⟩ := eq_of_ofRat? h hround
      exact absurd rfl (hfinite true)
    · have hr0 : r ≠ 0 := (lt_of_lt_of_le (by norm_num) hle).ne'
      rw [hr, Binary64.neg, if_neg hr0] at hround
      exact ⟨-r, (eq_of_ofRat? h hround).1, .inr (.inr ⟨hlarge, neg_le_neg hle⟩)⟩

/-! ### Differences -/

/-- The number has the whole value `n`; a floating-point one is moderate. -/
def Has (x : Number) (n : ℤ) : Prop := x = int n ∨ x = float (num n) ∧ |n| < 2 ^ 53 - 1

/-- The difference with a moderate number, after rounding. -/
theorem Rounds.sign_sub (hq : Rounds a q) (hb : |b| < 2 ^ 53 - 1) :
    (float (ofRat (q - b))).sign = (a - b).sign := by
  have hb := abs_lt.1 hb
  rcases hq with rfl | ⟨ha, hq⟩ | ⟨ha, hq⟩
  · rw [← Int.cast_sub, sign_ofRat]
  · have hbq : (b : ℚ) ≤ 2 ^ 53 - 2 := by exact_mod_cast Int.le_sub_one_of_lt hb.2
    rw [Int.sign_eq_one_of_pos (by omega), sign_ofRat_of_one_le (by linarith)]
  · have hbq : -(2 ^ 53 - 2) ≤ (b : ℚ) := by exact_mod_cast Int.add_one_le_of_lt hb.1
    rw [Int.sign_eq_neg_one_of_neg (by omega), sign_ofRat_of_le_neg_one (by linarith)]

/-- **The sign of a difference** of whole values is the exact one. -/
theorem Has.sign_sub (hx : x.Has a) (hy : y.Has b) (h : x.sub y = .ok d) :
    d.sign = (a - b).sign := by
  rcases hx with rfl | ⟨rfl, ha⟩
  · rcases hy with rfl | ⟨rfl, hb⟩
    · obtain rfl := Except.ok.inj h
      exact sign_int _
    · obtain ⟨u, hu, h⟩ := Outcome.bind_eq_ok.1 h
      obtain ⟨q, rfl, hq⟩ := toBinary64_int hu
      obtain rfl := Except.ok.inj h
      rw [sub_num, hq.sign_sub hb]
  · rcases hy with rfl | ⟨rfl, hb⟩
    · obtain ⟨u, hu, h⟩ := Outcome.bind_eq_ok.1 h
      obtain rfl := Except.ok.inj hu
      obtain ⟨v, hv, h⟩ := Outcome.bind_eq_ok.1 h
      obtain ⟨q, rfl, hq⟩ := toBinary64_int hv
      obtain rfl := Except.ok.inj h
      have hneg := hq.neg.sign_sub (b := -a) (by rwa [abs_neg])
      rw [sub_num, ← neg_sub_neg, ← Int.cast_neg, hneg, neg_sub_neg]
    · obtain rfl := Except.ok.inj h
      rw [sub_num, ← Int.cast_sub, sign_ofRat]

end Number

end ErCanvas
