import Mathlib.Data.List.TakeWhile
import ErCanvas.Proofs.Json.Numeral
import ErCanvas.Proofs.Number.Shortest

/-! # Floating-point numbers read back

A floating-point number is written with the digits of its shortest decimal and with a point, an exponent
or both. What is written is a `Numeral`: whatever the layout, its parts are read back one by one, and
its value is that of the decimal.

* `numberRest_text`: a numeral is read as the number that its digits and its exponent stand for.
* `Decimal.exists_write`: the written form of a number is a numeral of the same value.
* `Number.readsBack_float`: every floating-point number is read back. -/

namespace ErCanvas

namespace Text

/-! ### The value of digits -/

theorem digitsValue_eq (cs : List Char) : digitsValue cs = Nat.ofDigitChars 10 cs 0 := by
  rw [Nat.ofDigitChars_eq_foldl, digitsValue]
  simp only [Nat.mul_comm 10]
  rfl

theorem digitsValue_append (xs ys : List Char) :
    digitsValue (xs ++ ys) = digitsValue xs * 10 ^ ys.length + digitsValue ys := by
  rw [digitsValue_eq, digitsValue_eq, digitsValue_eq, Nat.ofDigitChars_append,
    Nat.ofDigitChars_eq_ofDigitChars_zero, Nat.mul_comm]

theorem digitsValue_zeros (n : ℕ) : digitsValue (List.replicate n '0') = 0 := by
  rw [digitsValue_eq, Nat.ofDigitChars_replicate_zero, Nat.mul_zero]

theorem digitsValue_zeros_append (n : ℕ) (cs : List Char) :
    digitsValue (List.replicate n '0' ++ cs) = digitsValue cs := by
  rw [digitsValue_append, digitsValue_zeros, Nat.zero_mul, Nat.zero_add]

theorem digitsValue_append_zeros (cs : List Char) (n : ℕ) :
    digitsValue (cs ++ List.replicate n '0') = digitsValue cs * 10 ^ n := by
  rw [digitsValue_append, digitsValue_zeros, List.length_replicate, Nat.add_zero]

end Text

/-! ### Numerals -/

/-- The parts of a written number: the digits before the point, those behind it, and the exponent. -/
structure Numeral where
  whole : List Char
  fraction : List Char
  exponent : Option ℤ

namespace Numeral

/-- The sign and the digits of an exponent. -/
def exponentText : Option ℤ → List Char
  | none => []
  | some e => 'e' :: (if e < 0 then '-' else '+') :: Decimal.padded 2 e.natAbs

/-- The written number. -/
def text (n : Numeral) : List Char :=
  n.whole ++ ((if n.fraction.isEmpty then [] else '.' :: n.fraction) ++ exponentText n.exponent)

/-- The magnitude that the number stands for. -/
def value (n : Numeral) : ℚ :=
  Decimal.scale (Text.digitsValue (n.whole ++ n.fraction)) (n.exponent.getD 0 - n.fraction.length)

/-- The number is written as one that is not whole. -/
structure IsFloating (n : Numeral) : Prop where
  nonempty : n.whole ≠ []
  whole : ∀ c ∈ n.whole, c.isDigit
  fraction : ∀ c ∈ n.fraction, c.isDigit
  /-- Nothing comes behind a zero in front. -/
  zero : n.whole.head? = some '0' → n.whole = ['0']
  marked : n.fraction ≠ [] ∨ n.exponent ≠ none

end Numeral

namespace Json

variable {rest : List Char}

theorem isDigit_zeros {n : ℕ} {c : Char} (h : c ∈ List.replicate n '0') : c.isDigit := by
  rw [(List.mem_replicate.1 h).2]; rfl

theorem isDigit_padded {w n : ℕ} {c : Char} (h : c ∈ Decimal.padded w n) : c.isDigit := by
  rcases List.mem_append.1 h with h | h
  · exact isDigit_zeros h
  · exact isDigit_toDigits h

theorem digitsValue_padded (w n : ℕ) : Text.digitsValue (Decimal.padded w n) = n := by
  rw [Decimal.padded, Text.digitsValue_zeros_append, digitsValue_toDigits]

theorem wholePart_append {ds : List Char} (h0 : ds ≠ []) (hd : ∀ c ∈ ds, c.isDigit)
    (hz : ds.head? = some '0' → ds = ['0']) (hr : ∀ c ∈ rest.head?, c.isDigit = false) :
    wholePart (ds ++ rest) = (ds, rest) := by
  by_cases h : ds.head? = some '0'
  · rw [hz h]; rfl
  · unfold wholePart
    split
    · rename_i hc
      obtain ⟨d, ds, rfl⟩ := List.exists_cons_of_ne_nil h0
      cases hc; exact absurd rfl h
    · exact spanDigits_append hd hr

/-- What comes behind the digits of a number in front of its exponent. -/
theorem exponentText_follows (e : Option ℤ) (hr : Follows rest) :
    ∀ c ∈ (Numeral.exponentText e ++ rest).head?, c = 'e' ∨ c = ',' ∨ c = '\n' := by
  cases e with
  | none => exact fun c hc => .inr (hr c hc)
  | some e => simp [Numeral.exponentText]

theorem exponentPart_append (e : Option ℤ) (hr : Follows rest) :
    exponentPart (Numeral.exponentText e ++ rest) = (e, rest) := by
  cases e with
  | none => exact exponentPart_follows hr
  | some e =>
    have hs := spanDigits_append (fun c => isDigit_padded (w := 2) (n := e.natAbs) (c := c))
      hr.not_digit
    have h0 : (Decimal.padded 2 e.natAbs).isEmpty = false := by
      simp [Decimal.padded, Nat.toDigits_ne_nil]
    have hv := digitsValue_padded 2 e.natAbs
    unfold Numeral.exponentText exponentPart
    by_cases he : e < 0
    · have hsigned : Text.signed true e.natAbs = e := by rw [Text.signed, if_pos rfl]; omega
      simp only [if_pos he, List.cons_append, Text.splitSign, hs, h0, hv, hsigned]
      rfl
    · have hsigned : Text.signed false e.natAbs = e := by rw [Text.signed, if_neg (by decide)]; omega
      simp only [if_neg he, List.cons_append, Text.splitSign, hs, h0, hv, hsigned]
      rfl

theorem fractionPart_append {ds : List Char} (hd : ∀ c ∈ ds, c.isDigit) (e : Option ℤ)
    (hr : Follows rest) :
    fractionPart ((if ds.isEmpty then [] else '.' :: ds) ++ (Numeral.exponentText e ++ rest)) =
      (ds, Numeral.exponentText e ++ rest) := by
  have hf := exponentText_follows e hr
  cases ds with
  | nil =>
    -- neither an exponent nor what comes behind the number is a point
    simp only [List.isEmpty_nil, if_true, List.nil_append]
    unfold fractionPart
    split
    · rename_i h
      have := hf '.' (by rw [h]; rfl)
      simp at this
    · rfl
  | cons d ds =>
    have hs := spanDigits_append hd fun c hc => by
      rcases hf c hc with rfl | rfl | rfl <;> rfl
    simpa [fractionPart, hd d (.head _)] using hs

/-- A number that is written as one that is not whole is read as the floating-point number that its
digits and its exponent stand for. -/
theorem numberRest_text (start : List Char) (negative : Bool) {n : Numeral} (h : n.IsFloating)
    (hr : Follows rest) :
    numberRest start negative (n.text ++ rest) =
      .ok (num (.float (Text.decimalOf negative n.whole n.fraction
        (n.exponent.getD 0)).toBinary64), rest) := by
  have hw : wholePart (n.text ++ rest) =
      (n.whole, (if n.fraction.isEmpty then [] else '.' :: n.fraction) ++
        (Numeral.exponentText n.exponent ++ rest)) := by
    rw [Numeral.text, List.append_assoc, List.append_assoc]
    refine wholePart_append h.nonempty h.whole h.zero fun c hc => ?_
    cases hf : n.fraction with
    | nil =>
      rw [hf] at hc
      rcases exponentText_follows n.exponent hr c hc with rfl | rfl | rfl <;> rfl
    | cons d ds => rw [hf] at hc; cases hc; rfl
  have hm : (n.fraction.isEmpty && n.exponent.isNone) = false := by
    rcases h.marked with hm | hm
    · simp [hm]
    · simp [Option.isNone_eq_false_iff, Option.isSome_iff_ne_none, hm]
  have he : n.whole.isEmpty = false := by simp [h.nonempty]
  simp only [numberRest, hw, fractionPart_append h.fraction n.exponent hr,
    exponentPart_append n.exponent hr, he, hm]
  rfl

end Json

/-! ### Written numbers -/

namespace Decimal

/-- The digits of a positive number, the first of which is not zero. -/
structure Leading (ds : List Char) : Prop where
  nonempty : ds ≠ []
  digit : ∀ c ∈ ds, c.isDigit
  head : ds.head? ≠ some '0'

/-- The numeral is the written form of `0.d₁d₂… · 10 ^ point`. -/
def Writes (ds : List Char) (point : ℤ) (text : List Char) : Prop :=
  ∃ n : Numeral, n.IsFloating ∧ n.text = text ∧
    n.value = scale (Text.digitsValue ds) (point - ds.length)

variable {ds : List Char} {point : ℤ}

theorem writes_positional (h : Leading ds) (point : ℤ) :
    Writes ds point (positional ds point) := by
  unfold positional
  split
  · rename_i hp
    refine ⟨⟨['0'], List.replicate (-point).toNat '0' ++ ds, none⟩,
      ⟨by simp, by simp, fun c hc => ?_, fun _ => rfl, .inl (by simp [h.nonempty])⟩, ?_, ?_⟩
    · rcases List.mem_append.1 hc with hc | hc
      · exact Json.isDigit_zeros hc
      · exact h.digit c hc
    · simp [Numeral.text, Numeral.exponentText, h.nonempty]
    · have hz : ['0'] ++ (List.replicate (-point).toNat '0' ++ ds) =
          List.replicate ((-point).toNat + 1) '0' ++ ds := rfl
      have he : (none : Option ℤ).getD 0 - ((-point).toNat + ds.length : ℕ) =
          point - ds.length := by simp; omega
      rw [Numeral.value, hz, Text.digitsValue_zeros_append, List.length_append,
        List.length_replicate, he]
  · rename_i hp
    dsimp only
    split
    · rename_i hw
      refine ⟨⟨ds ++ List.replicate (point.toNat - ds.length) '0', ['0'], none⟩,
        ⟨by simp [h.nonempty], fun c hc => ?_, by simp, fun hc => ?_, .inl (by simp)⟩, ?_, ?_⟩
      · rcases List.mem_append.1 hc with hc | hc
        · exact h.digit c hc
        · exact Json.isDigit_zeros hc
      · rw [List.head?_append_of_ne_nil _ h.nonempty] at hc
        exact absurd hc h.head
      · simp [Numeral.text, Numeral.exponentText]
      · have hz : ds ++ List.replicate (point.toNat - ds.length) '0' ++ ['0'] =
            ds ++ List.replicate (point.toNat - ds.length + 1) '0' := by
          rw [List.append_assoc, List.replicate_succ']
        have he : point - ds.length = ((point.toNat - ds.length + 1 : ℕ) : ℤ) + -1 := by omega
        rw [Numeral.value, hz, Text.digitsValue_append_zeros, scale_eq, scale_eq, he,
          zpow_add₀ (by norm_num), zpow_natCast, ← mul_assoc, Nat.cast_mul, Nat.cast_pow]
        rfl
    · rename_i hw
      refine ⟨⟨ds.take point.toNat, ds.drop point.toNat, none⟩,
        ⟨?_, fun c hc => h.digit c (List.mem_of_mem_take hc),
          fun c hc => h.digit c (List.mem_of_mem_drop hc), fun hc => ?_, .inl ?_⟩, ?_, ?_⟩
      · simp [h.nonempty]; omega
      · rw [List.head?_take, if_neg (by omega)] at hc
        exact absurd hc h.head
      · simp; omega
      · have hd : ds.drop point.toNat ≠ [] := by simp; omega
        simp [Numeral.text, Numeral.exponentText, hd]
      · have he : (none : Option ℤ).getD 0 - (ds.length - point.toNat : ℕ) =
            point - ds.length := by simp; omega
        rw [Numeral.value, List.take_append_drop, List.length_drop, he]

theorem writes_scientific (h : Leading ds) (point : ℤ) :
    Writes ds point (scientific Style.plain ds point) := by
  obtain ⟨d, rest, rfl⟩ := List.exists_cons_of_ne_nil h.nonempty
  refine ⟨⟨[d], rest, some (point - 1)⟩,
    ⟨by simp, fun c hc => ?_, fun c hc => h.digit c (.tail _ hc), fun hc => ?_, .inr (by simp)⟩,
    ?_, ?_⟩
  · rw [List.mem_singleton.1 hc]; exact h.digit d (.head _)
  · exact absurd hc h.head
  · cases rest with
    | nil => rfl
    | cons c rest => rfl
  · have he : (some (point - 1)).getD 0 - (rest.length : ℤ) = point - (d :: rest).length := by
      simp; omega
    rw [Numeral.value, he, List.singleton_append]

/-- The digits of a number without the zeros at its end. -/
theorem toDigits_eq_significant (c : ℕ) :
    ∃ z, Nat.toDigits 10 c = significant c ++ List.replicate z '0' := by
  have hz := List.eq_replicate_of_mem (l := (Nat.toDigits 10 c).reverse.takeWhile (· == '0'))
    fun x hx => by simpa using List.mem_takeWhile_imp hx
  refine ⟨((Nat.toDigits 10 c).reverse.takeWhile (· == '0')).length, ?_⟩
  rw [significant, ← List.reverse_replicate, ← hz, ← List.reverse_append,
    List.takeWhile_append_dropWhile, List.reverse_reverse]

theorem leading_significant {c : ℕ} (hc : 0 < c) : Leading (significant c) := by
  obtain ⟨z, hz⟩ := toDigits_eq_significant c
  have hne : significant c ≠ [] := by
    intro h0
    have h := Json.digitsValue_toDigits c
    rw [hz, h0, List.nil_append, Text.digitsValue_zeros] at h
    omega
  refine ⟨hne, fun d hd => Json.isDigit_toDigits (n := c) ?_, ?_⟩
  · rw [hz]; exact List.mem_append_left _ hd
  · have h := Json.head?_toDigits hc
    rwa [hz, List.head?_append_of_ne_nil _ hne] at h

/-- The written form of a decimal stands for it. -/
theorem scale_significant (c : ℕ) (e : ℤ) :
    scale (Text.digitsValue (significant c)) (e + digitCount c - (significant c).length) =
      scale c e := by
  obtain ⟨z, hz⟩ := toDigits_eq_significant c
  have hc := Json.digitsValue_toDigits c
  have he : e + digitCount c - (significant c).length = z + e := by
    rw [digitCount, hz, List.length_append, List.length_replicate]; push_cast; ring
  rw [hz, Text.digitsValue_append_zeros] at hc
  rw [he, scale_eq, scale_eq, zpow_add₀ (by norm_num), zpow_natCast, ← mul_assoc]
  congr 1
  exact_mod_cast hc

theorem exists_write {q : ℚ} {c : ℕ} {e : ℤ} (hc : 0 < c) (h : shortest q = ⟨false, c, e⟩) :
    ∃ n : Numeral, n.IsFloating ∧ n.text = write Style.plain q ∧ n.value = scale c e := by
  have hl := leading_significant hc
  unfold write
  rw [h, ← scale_significant]
  dsimp only
  split
  · exact writes_positional hl _
  · exact writes_scientific hl _

end Decimal

/-! ### Numbers read back -/

namespace Number

/-- A floating-point number is read back if the digits and the exponent it is written with stand for
it. -/
theorem readsBack_numeral {x : Binary64} (negative : Bool) {n : Numeral} (h : n.IsFloating)
    (hw : Json.writeNumber (.float x) = (if negative then ['-'] else []) ++ n.text)
    (hx : (Text.decimalOf negative n.whole n.fraction (n.exponent.getD 0)).toBinary64 = x) :
    ReadsBack (.float x) := by
  intro list object rest hr
  obtain ⟨d, ds, hd⟩ := List.exists_cons_of_ne_nil h.nonempty
  have hdigit : d.isDigit := h.whole d (hd ▸ List.mem_cons_self)
  obtain ⟨cs, hcs⟩ : ∃ cs, n.text ++ rest = d :: cs := by
    rw [Numeral.text, hd]; exact ⟨_, rfl⟩
  cases negative with
  | false =>
    rw [hw, if_neg (by decide), List.nil_append, hcs, Json.valueWith_digit _ _ hdigit, ← hcs,
      Json.numberRest_text _ _ h hr, hx]
  | true =>
    rw [hw, if_pos rfl, List.singleton_append, List.cons_append, hcs,
      Json.valueWith_minus _ _ hdigit, ← hcs, Json.numberRest_text _ _ h hr, hx]

/-- The numeral of zero. -/
def zeroNumeral : Numeral := ⟨['0'], ['0'], none⟩

theorem isFloating_zero : zeroNumeral.IsFloating :=
  ⟨by simp [zeroNumeral], by simp [zeroNumeral], by simp [zeroNumeral], fun _ => rfl,
    .inl (by simp [zeroNumeral])⟩

/-- **Every floating-point number is read back.** -/
theorem readsBack_float {x : Binary64} (h : x.Settled) : ReadsBack (.float x) := by
  cases x with
  | nan => intro list object rest _; rfl
  | infinity s => intro list object rest _; cases s <;> rfl
  | negZero => exact readsBack_numeral true isFloating_zero rfl rfl
  | num q =>
    rcases eq_or_ne q 0 with rfl | hq
    · exact readsBack_numeral false isFloating_zero rfl rfl
    have habs := rat_abs_eq q
    have hpos := abs_pos.2 hq
    -- the sign is written apart, so the digits are those of the magnitude
    have hmag : Binary64.ofRat |q| = .num |q| := by
      rcases lt_or_gt_of_ne hq with hneg | hqpos
      · have := h.neg
        rwa [Binary64.neg, if_neg hq, ← abs_of_neg hneg] at this
      · rwa [abs_of_pos hqpos]
    obtain ⟨c, e, hshort, hback⟩ := Decimal.exists_shortest hpos hmag
    obtain ⟨n, hn, htext, hvalue⟩ :=
      Decimal.exists_write (Decimal.coefficient_pos hpos hback) hshort
    refine readsBack_numeral (q < 0) hn ?_ ?_
    · simp [Json.writeNumber, Binary64.write, hq, habs, htext]
    · rw [Numeral.value] at hvalue
      rw [← hvalue] at hback
      have hd := Decimal.toBinary64_eq (decide (q < 0)) hpos hback
      have hsign : (if decide (q < 0) = true then -|q| else |q|) = q := by
        rcases lt_or_gt_of_ne hq with hneg | hqpos
        · rw [if_pos (decide_eq_true hneg), abs_of_neg hneg, neg_neg]
        · rw [if_neg (by simpa using hqpos.le), abs_of_pos hqpos]
      rw [hsign] at hd
      exact hd

end Number

end ErCanvas
