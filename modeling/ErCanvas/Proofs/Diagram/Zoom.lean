import Mathlib.Algebra.Order.Ring.Rat
import Mathlib.Data.Int.Notation
import Mathlib.Tactic.Linarith
import ErCanvas.Diagram.Document
import ErCanvas.Proofs.Json.Fraction
import ErCanvas.Proofs.Json.RoundTrip
import ErCanvas.Proofs.Outcome

/-! # The zoom of a stored diagram

A diagram that is given a whole zoom, or the standard one, gets one of four zooms: the least, the
greatest, or one as a whole or as a floating-point number. Each of them is written with digits that
are read back, and a document with that zoom gives a diagram with the same zoom. -/

namespace ErCanvas.Diagram

/-- The zoom is read back from a document by its value. -/
structure Restorable (z : Json) : Prop where
  readable : ∀ d, Json.Readable d z
  restored : ∃ z', zoomOf z = .ok z' ∧ clampZoom z' = .ok z' ∧ z'.same z

/-! ### Limits -/

theorem clampZoom_num (n : Number) : clampZoom (.num n) =
    .ok (if n.lt greatestZoom then if leastZoom.lt n then .num n else .num leastZoom
      else .num greatestZoom) := by
  unfold clampZoom
  simp only [Json.number, Outcome.ok_bind, Outcome.pure_eq]
  split
  · split <;> rfl
  · rfl

/-- A whole number is beyond the limits unless it is one. -/
theorem clampZoom_int (z : ℤ) : clampZoom (.int z) =
    .ok (if 2 ≤ z then .num greatestZoom else if 1 ≤ z then .int z else .num leastZoom) := by
  have hg : (Number.int z).lt greatestZoom = decide (z < 2) := by
    have h2 : ((z : ℚ) < 2) ↔ z < 2 := by exact_mod_cast Iff.rfl
    exact decide_eq_decide.2 h2
  have hl : leastZoom.lt (.int z) = decide (1 ≤ z) := by
    -- no whole number lies between a quarter and one
    have h1 : ((1 / 4 : ℚ) < z) ↔ 1 ≤ z := by
      constructor
      · intro h
        by_contra hz
        have hz : z ≤ 0 := by omega
        have : (z : ℚ) ≤ 0 := by exact_mod_cast hz
        linarith
      · intro h
        have : (1 : ℚ) ≤ z := by exact_mod_cast h
        linarith
    exact decide_eq_decide.2 h1
  rw [clampZoom_num, hg, hl]
  split_ifs <;> simp_all <;> omega

/-! ### The four zooms -/

theorem restorable_least : Restorable (.num leastZoom) where
  readable d := .num d <| Number.readsBack_float <|
    Binary64.settled_of_isExact (by decide +kernel)
  restored := by
    refine ⟨.num leastZoom, rfl, ?_, by decide +kernel⟩
    rw [clampZoom_num, if_pos (by decide +kernel), if_neg (by decide +kernel)]

theorem restorable_greatest : Restorable (.num greatestZoom) where
  readable d := .num d <| Number.readsBack_float <|
    Binary64.settled_of_isExact (by decide +kernel)
  restored := by
    refine ⟨.num greatestZoom, rfl, ?_, by decide +kernel⟩
    rw [clampZoom_num, if_neg (by decide +kernel)]

theorem clampZoom_standard : clampZoom standardZoom = .ok standardZoom := by
  rw [standardZoom, clampZoom_num, if_pos (by decide +kernel), if_pos (by decide +kernel)]

theorem restorable_standard : Restorable standardZoom where
  readable d := .num d <| Number.readsBack_float <|
    Binary64.settled_of_isExact (by decide +kernel)
  restored := ⟨standardZoom, rfl, clampZoom_standard, by decide +kernel⟩

theorem restorable_one : Restorable (.int 1) where
  readable d := .num d <| Number.readsBack_int (Nat.one_lt_pow (by decide) (by decide))
  restored := ⟨standardZoom, by rfl, clampZoom_standard, by decide +kernel⟩

/-- The zoom of a diagram that is given a whole zoom is read back. -/
theorem restorable_int {z : ℤ} {z' : Json} (h : clampZoom (.int z) = .ok z') : Restorable z' := by
  rw [clampZoom_int] at h
  cases h
  split_ifs
  · exact restorable_greatest
  · obtain rfl : z = 1 := by omega
    exact restorable_one
  · exact restorable_least

end ErCanvas.Diagram
