import ErCanvas.Proofs.Json.Numeral
import ErCanvas.Proofs.Text.Trim

/-! # Decimal forms

The decimal form of a whole number is made of digits and of a minus sign where the number is negative. The
reader of whole numbers, which allows for white space, signs, foreign digits and underscores, takes it as it
stands.

* `mem_toString`, `space_notMem_toString`: what the decimal form is made of.
* `readInt_toString`: it is read as the number, up to the limit on the digits. -/

namespace ErCanvas.Text

theorem toList_toString (n : ℤ) : (toString n).toList =
    if n < 0 then '-' :: Nat.toDigits 10 n.natAbs else Nat.toDigits 10 n.natAbs := by
  cases n with
  | ofNat n =>
    rw [Int.ofNat_eq_natCast, if_neg (Int.not_lt.2 (Int.natCast_nonneg n))]
    exact Number.writeNumber_ofNat n
  | negSucc n =>
    rw [if_pos (Int.negSucc_lt_zero n)]
    exact Number.writeNumber_negSucc n

/-- The characters of a decimal form are digits and the minus sign. -/
theorem mem_toString {n : ℤ} {c : Char} (h : c ∈ (toString n).toList) :
    c = '-' ∨ c.isDigit = true := by
  rw [toList_toString] at h
  split at h
  · exact (List.mem_cons.1 h).imp_right Json.isDigit_toDigits
  · exact .inr (Json.isDigit_toDigits h)

theorem space_notMem_toString (n : ℤ) : ' ' ∉ (toString n).toList := fun h => by
  rcases mem_toString h with h | h <;> cases h

/-- There is nothing to trim or to respell in a decimal form. -/
theorem trimNumeral_toString (n : ℤ) : trimNumeral (toString n).toList = (toString n).toList := by
  have hcode : ∀ c ∈ (toString n).toList, 45 ≤ c.toNat ∧ c.toNat ≤ 57 := fun c hc => by
    rcases mem_toString hc with rfl | hdigit
    · decide
    · have hcode : 48 ≤ c.toNat ∧ c.toNat ≤ 57 := Char.isDigit_iff_toNat.1 hdigit
      omega
  have hplain : (toString n).toList.map plainNumeralChar = (toString n).toList := by
    refine (List.map_congr_left fun c hc => ?_).trans (List.map_id _)
    have := hcode c hc
    exact if_pos (by omega)
  rw [trimNumeral, hplain]
  refine dropWhileBoth_eq_self fun c hc => ?_
  have := hcode c hc
  have hspace : c ≠ ' ' := fun h => space_notMem_toString n (h ▸ hc)
  rw [isNumeralBlank, beq_eq_false_iff_ne.2 hspace, Bool.false_or, Bool.and_eq_false_iff]
  exact .inr (decide_eq_false (by omega))

/-- The sign of a decimal form is taken off. -/
theorem splitSign_toString (n : ℤ) :
    splitSign (toString n).toList = (decide (n < 0), Nat.toDigits 10 n.natAbs) := by
  rw [toList_toString]
  split
  · rename_i hneg
    rw [decide_eq_true hneg]
    rfl
  · rename_i hpos
    rw [decide_eq_false hpos]
    obtain ⟨d, ds, hd, hcons⟩ := Number.toDigits_eq_cons n.natAbs
    rw [hcons]
    -- a digit is no sign
    unfold splitSign
    split
    · rename_i heq
      cases (List.cons.inj heq).1 ▸ hd
    · rename_i heq
      cases (List.cons.inj heq).1 ▸ hd
    · rfl

theorem ungroup_digits {ds : List Char} (h : ∀ c ∈ ds, c.isDigit = true) {last : Char}
    (hlast : last ≠ '_') : ungroup last ds = some ds := by
  induction ds generalizing last with
  | nil => exact if_neg hlast
  | cons d ds ih =>
    obtain ⟨hd, hds⟩ := List.forall_mem_cons.1 h
    have hne : d ≠ '_' := by
      rintro rfl
      cases hd
    simp [ungroup, hne, hlast, ih hds hne]

/-- **A decimal form is read** as its number. -/
theorem readInt_toString {n : ℤ} (hn : n.natAbs < 10 ^ Fault.digitLimit) :
    readInt (toString n) = .ok n := by
  have hdigits : ∀ c ∈ Nat.toDigits 10 n.natAbs, c.isDigit = true := fun c => Json.isDigit_toDigits
  have hgrouped : ∀ c ∈ Nat.toDigits 10 n.natAbs, isGroupedDigit c = true := fun c hc => by
    rw [isGroupedDigit, hdigits c hc]
    rfl
  have htake : (Nat.toDigits 10 n.natAbs).takeWhile isGroupedDigit = Nat.toDigits 10 n.natAbs :=
    List.takeWhile_eq_self_iff.2 hgrouped
  have hlength := (Nat.length_toDigits_le_iff (b := 10) (by decide) (by decide)).2 hn
  obtain ⟨d, ds, -, hcons⟩ := Number.toDigits_eq_cons n.natAbs
  have hshort : ¬ Fault.digitLimit < ds.length + 1 := by
    rw [hcons] at hlength
    exact Nat.not_lt.2 hlength
  have hungroup : ungroup ' ' (d :: ds) = some (d :: ds) :=
    hcons ▸ ungroup_digits hdigits (by decide)
  have hsigned : signed (decide (n < 0)) n.natAbs = n := by
    simp only [signed, decide_eq_true_eq]
    omega
  unfold readInt
  rw [trimNumeral_toString, splitSign_toString]
  dsimp only
  rw [htake, hcons, hungroup]
  dsimp only
  rw [if_neg hshort, ← hcons, if_pos (List.all_eq_true.2 hgrouped), Json.digitsValue_toDigits, hsigned]

end ErCanvas.Text
