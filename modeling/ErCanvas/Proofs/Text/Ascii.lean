import Mathlib.Data.Nat.Notation
import ErCanvas.Text.Blank
import ErCanvas.Text.Case.Lower
import ErCanvas.Text.Case.Upper
import ErCanvas.Text.Word

/-! # ASCII texts

The rules for letters of all scripts are simple on ASCII characters: upper and lower case are those of
single letters, and the characters of words are letters, digits and the underscore, none of which is
white space. What is decidable is checked on the 128 characters (`forall_ascii`). -/

namespace ErCanvas.Text

theorem forall_ascii {P : Char → Prop} (h : ∀ n < 128, P (Char.ofNat n)) {c : Char}
    (hc : c.toNat < 128) : P c := by
  have := h c.toNat hc
  rwa [Char.ofNat_toNat] at this

theorem ne_of_ascii {c d : Char} (hc : c.toNat < 128) (hd : 128 ≤ d.toNat) : c ≠ d := by
  rintro rfl
  omega

/-! ### Case -/

section

variable {c : Char}

theorem isLower_toLower (hc : c.toNat < 128) :
    c.isAlpha = false → c.toLower.isLower = false :=
  forall_ascii (P := fun c => c.isAlpha = false → c.toLower.isLower = false)
    (by decide +kernel) hc

theorem toLower_toUpper (h : c.toNat < 128) : c.toUpper.toLower = c.toLower :=
  forall_ascii (P := fun c => c.toUpper.toLower = c.toLower) (by decide +kernel) h

theorem toUpper_toLower (h : c.toNat < 128) : c.toLower.toUpper = c.toUpper :=
  forall_ascii (P := fun c => c.toLower.toUpper = c.toUpper) (by decide +kernel) h

theorem eq_space_of_toLower (h : c.toNat < 128) : c.toLower = ' ' → c = ' ' :=
  forall_ascii (P := fun c => c.toLower = ' ' → c = ' ') (by decide +kernel) h

end

section

variable {cs : List Char}

theorem upper_of_ascii (h : ∀ c ∈ cs, c.toNat < 128) : upper cs = cs.map Char.toUpper := by
  induction cs with
  | nil => rfl
  | cons c cs ih =>
    have hc : upperChar c = [c.toUpper] := if_pos (h c (.head _))
    rw [upper, List.flatMap_cons, hc]
    exact congrArg (c.toUpper :: ·) (ih fun d hd => h d (.tail _ hd))

theorem lowerFrom_of_ascii (h : ∀ c ∈ cs, c.toNat < 128) (b : Bool) :
    lowerFrom b cs = cs.map Char.toLower := by
  induction cs generalizing b with
  | nil => rfl
  | cons c cs ih =>
    have hc := h c (.head _)
    rw [lowerFrom, if_neg (ne_of_ascii hc (by decide)), if_neg (ne_of_ascii hc (by decide)),
      lowerChar, if_pos hc, ih fun d hd => h d (.tail _ hd)]
    rfl

theorem lower_of_ascii (h : ∀ c ∈ cs, c.toNat < 128) :
    lower (String.ofList cs) = String.ofList (cs.map Char.toLower) := by
  rw [lower, String.toList_ofList, lowerFrom_of_ascii h]

end

/-! ### Words -/

/-- A letter or digit of ASCII, or the underscore. -/
def isPlain (c : Char) : Bool := c.isAlphanum || c == '_'

section

variable {c : Char}

theorem toNat_lt_of_isPlain (h : isPlain c = true) : c.toNat < 128 := by
  have h : ((decide ('A'.val ≤ c.val ∧ c.val ≤ 'Z'.val) ||
      (decide ('a'.val ≤ c.val) && decide (c.val ≤ 'z'.val))) ||
      (decide ('0'.val ≤ c.val) && decide (c.val ≤ '9'.val)) || c == '_') = true := h
  simp only [Bool.or_eq_true, Bool.and_eq_true, decide_eq_true_eq, UInt32.le_iff_toNat_le,
    beq_iff_eq] at h
  change ((65 ≤ c.toNat ∧ c.toNat ≤ 90 ∨ 97 ≤ c.toNat ∧ c.toNat ≤ 122) ∨
    48 ≤ c.toNat ∧ c.toNat ≤ 57) ∨ c = '_' at h
  rcases h with h | rfl
  · omega
  · decide

theorem isAlpha_of_isDigit (h : c.isDigit = true) :
    c.toNat < 128 ∧ c.isAlpha = false := by
  have hc : c.toNat < 128 := toNat_lt_of_isPlain (by simp [isPlain, Char.isAlphanum, h])
  exact ⟨hc, forall_ascii (P := fun c => c.isDigit = true → c.isAlpha = false)
    (by decide +kernel) hc h⟩

theorem isWordChar_of_ascii (h : c.toNat < 128) : isWordChar c = isPlain c := if_pos h

theorem isWordChar_of_isPlain (h : isPlain c = true) : isWordChar c = true := by
  rw [isWordChar_of_ascii (toNat_lt_of_isPlain h), h]

theorem isBlank_of_isPlain (h : isPlain c = true) : isBlank c = false :=
  forall_ascii (P := fun c => isPlain c = true → isBlank c = false) (by decide +kernel)
    (toNat_lt_of_isPlain h) h

/-- What has a lower case letter for its lower case is a letter. -/
theorem isPlain_of_isLower_toLower (h : c.toLower.isLower = true) : isPlain c = true := by
  have hletter : c.isAlpha = true := by
    refine Bool.or_eq_true_iff.2 ?_
    by_cases hu : c.isUpper = true
    · exact .inl hu
    · have hself : c.toLower = c := dif_neg fun hm => hu (decide_eq_true hm)
      rw [hself] at h
      exact .inr h
  simp [isPlain, Char.isAlphanum, hletter]

end

end ErCanvas.Text
