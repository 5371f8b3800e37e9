import Mathlib.Algebra.Group.Nat.Defs
import Mathlib.Data.Int.Notation
import Mathlib.Data.Nat.Notation
import ErCanvas.Json.Printer
import ErCanvas.Json.Reader

/-! # Numbers read back

A number in its written form is read back if what comes behind it cannot go on with it. This holds of
every whole number within the digit limit.

* `Follows`: what may come behind a value.
* `Number.ReadsBack`: the number is read back wherever it stands. -/

namespace ErCanvas

namespace Json

/-- What may come behind a value in a written document: nothing, a comma or the end of the line. -/
def Follows (rest : List Char) : Prop := ∀ c ∈ rest.head?, c = ',' ∨ c = '\n'

theorem follows_nil : Follows [] := by simp [Follows]

theorem follows_comma (rest : List Char) : Follows (',' :: rest) := by simp [Follows]

theorem follows_newLine (d : ℕ) (rest : List Char) : Follows (newLine d ++ rest) := by
  simp [Follows, newLine]

end Json

/-- The number in its written form is read as itself, whatever the readers of lists and objects. -/
def Number.ReadsBack (n : Number) : Prop :=
  ∀ (list object : List Char → Json.Reading Json) (rest : List Char), Json.Follows rest →
    Json.valueWith list object (Json.writeNumber n ++ rest) = .ok (.num n, rest)

namespace Json

/-! ### Digits -/

theorem spanDigits_append {ds rest : List Char} (hd : ∀ c ∈ ds, c.isDigit)
    (hr : ∀ c ∈ rest.head?, c.isDigit = false) : Text.spanDigits (ds ++ rest) = (ds, rest) := by
  induction ds with
  | nil =>
    cases rest with
    | nil => rfl
    | cons c rest => simp [Text.spanDigits, hr c rfl]
  | cons d ds ih =>
    obtain ⟨h1, h2⟩ := Prod.mk.injEq .. ▸ ih fun c hc => hd c (.tail _ hc)
    simp [Text.spanDigits, hd d (.head _), h1, h2]

theorem Follows.not_digit {rest : List Char} (hr : Follows rest) :
    ∀ c ∈ rest.head?, c.isDigit = false := by
  intro c hc
  rcases hr c hc with rfl | rfl <;> rfl

theorem digitsValue_toDigits (n : ℕ) : Text.digitsValue (Nat.toDigits 10 n) = n := by
  have h := Nat.ofDigitChars_ten_toDigits (n := n)
  rw [Nat.ofDigitChars_eq_foldl] at h
  simp only [Nat.mul_comm 10] at h
  exact h

theorem isDigit_toDigits {n : ℕ} {c : Char} (h : c ∈ Nat.toDigits 10 n) : c.isDigit :=
  Nat.isDigit_of_mem_toDigits (by decide) (by decide) h

theorem head?_toDigits_append (n : ℕ) (cs : List Char) :
    (Nat.toDigits 10 n ++ cs).head? = (Nat.toDigits 10 n).head? := by
  obtain ⟨d, ds, h⟩ := List.exists_cons_of_ne_nil (Nat.toDigits_ne_nil (n := n) (b := 10))
  rw [h]; rfl

/-- Only the digits of zero start with a zero. -/
theorem head?_toDigits {n : ℕ} (h : 0 < n) : (Nat.toDigits 10 n).head? ≠ some '0' := by
  induction n using Nat.strongRecOn with
  | ind n ih =>
    rw [Nat.toDigits_eq_if (by decide)]
    split
    · simp; omega
    · rw [head?_toDigits_append]
      exact ih _ (by omega) (by omega)

/-! ### Parts of a number -/

section

variable {rest : List Char}

theorem wholePart_toDigits (n : ℕ) (hr : ∀ c ∈ rest.head?, c.isDigit = false) :
    wholePart (Nat.toDigits 10 n ++ rest) = (Nat.toDigits 10 n, rest) := by
  rcases Nat.eq_zero_or_pos n with rfl | hn
  · rw [Nat.toDigits_zero]; rfl
  · have h := spanDigits_append (fun c => isDigit_toDigits (n := n) (c := c)) hr
    unfold wholePart
    split
    · rename_i h0
      refine absurd ?_ (head?_toDigits hn)
      rw [← head?_toDigits_append, h0]; rfl
    · exact h

theorem fractionPart_follows (hr : Follows rest) : fractionPart rest = ([], rest) := by
  unfold fractionPart
  split
  · simpa using hr _ rfl
  · rfl

theorem exponentPart_follows (hr : Follows rest) : exponentPart rest = (none, rest) := by
  cases rest with
  | nil => rfl
  | cons c rest => rcases hr c rfl with rfl | rfl <;> rfl

/-- A whole number within the digit limit is read from its digits. -/
theorem numberRest_toDigits (start : List Char) (negative : Bool) {n : ℕ}
    (hn : n < 10 ^ Fault.digitLimit) (hr : Follows rest) :
    numberRest start negative (Nat.toDigits 10 n ++ rest) =
      .ok (int (Text.signed negative n), rest) := by
  have hl : ¬Fault.digitLimit < (Nat.toDigits 10 n).length :=
    Nat.not_lt.2 ((Nat.length_toDigits_le_iff (by decide) (by decide)).2 hn)
  simp [numberRest, wholePart_toDigits n hr.not_digit, fractionPart_follows hr,
    exponentPart_follows hr, hl, digitsValue_toDigits]

end

/-! ### Numbers as values -/

section

variable (list object : List Char → Reading Json)

theorem ne_of_isDigit {c d : Char} (hc : c.isDigit) (hd : d.isDigit = false) : c ≠ d := by
  rintro rfl; simp [hd] at hc

theorem valueWith_digit {c : Char} (hc : c.isDigit) (cs : List Char) :
    valueWith list object (c :: cs) = numberRest (c :: cs) false (c :: cs) := by
  have h := fun d => ne_of_isDigit (d := d) hc
  have hw : word? (c :: cs) = none := by
    simp [word?, words, (h 'n' rfl).symm, (h 't' rfl).symm, (h 'f' rfl).symm, (h 'N' rfl).symm,
      (h 'I' rfl).symm, (h '-' rfl).symm]
  unfold valueWith
  split
  · exact absurd (List.cons.inj ‹_›).1 (h '"' rfl)
  · exact absurd (List.cons.inj ‹_›).1 (h '[' rfl)
  · exact absurd (List.cons.inj ‹_›).1 (h '\x7b' rfl)
  · rw [hw]
    split
    · cases ‹none = some _›
    · split
      · exact absurd (List.cons.inj ‹_›).1 (h '-' rfl)
      · rfl

theorem valueWith_minus {c : Char} (hc : c.isDigit) (cs : List Char) :
    valueWith list object ('-' :: c :: cs) = numberRest ('-' :: c :: cs) true (c :: cs) := by
  have hw : word? ('-' :: c :: cs) = none := by
    simp [word?, words, (ne_of_isDigit hc (d := 'I') rfl).symm]
  unfold valueWith
  rw [hw]; rfl

end

end Json

/-! ### Numbers read back -/

namespace Number

theorem toDigits_eq_cons (n : ℕ) : ∃ d ds, d.isDigit ∧ Nat.toDigits 10 n = d :: ds := by
  obtain ⟨d, ds, h⟩ := List.exists_cons_of_ne_nil (Nat.toDigits_ne_nil (n := n) (b := 10))
  exact ⟨d, ds, Json.isDigit_toDigits (h ▸ List.mem_cons_self), h⟩

theorem writeNumber_ofNat (n : ℕ) : Json.writeNumber (.int n) = Nat.toDigits 10 n := by
  simp [Json.writeNumber, Int.repr_eq_if]

theorem writeNumber_negSucc (n : ℕ) :
    Json.writeNumber (.int (.negSucc n)) = '-' :: Nat.toDigits 10 (n + 1) := by
  simp [Json.writeNumber, Int.repr_eq_if]

/-- A whole number within the digit limit is read back. -/
theorem readsBack_int {n : ℤ} (hn : n.natAbs < 10 ^ Fault.digitLimit) : ReadsBack (.int n) := by
  intro list object rest hr
  cases n with
  | ofNat n =>
    obtain ⟨d, ds, hd, h⟩ := toDigits_eq_cons n
    rw [Int.ofNat_eq_natCast, writeNumber_ofNat, h, List.cons_append, Json.valueWith_digit _ _ hd,
      ← List.cons_append, ← h, Json.numberRest_toDigits (n := n) _ _ hn hr]
    rfl
  | negSucc n =>
    obtain ⟨d, ds, hd, h⟩ := toDigits_eq_cons (n + 1)
    rw [writeNumber_negSucc, h, List.cons_append, List.cons_append, Json.valueWith_minus _ _ hd,
      ← List.cons_append, ← h, Json.numberRest_toDigits (n := n + 1) _ _ hn hr]
    rfl

end Number

end ErCanvas
