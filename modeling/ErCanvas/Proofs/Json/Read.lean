import Mathlib.Tactic.Ring
import ErCanvas.Proofs.Json.Fraction
import ErCanvas.Proofs.Json.RoundTrip

/-! # What is read is read back

Every document that is read from a text, however it is written, is read again from its printed form:
the readers open no more lists and objects than are left, keep one entry for every key, and take
whole numbers within the digit limit and floating-point numbers only.

* `Number.readsBack_iff`: the numbers that are read back are those that are read.
* `Yields`: what a reader gives is read back.
* `readable_of_read`: what is read is readable. -/

namespace ErCanvas

/-- The number is one that a document can give: a whole number within the digit limit, or a
floating-point number. -/
def Number.Regular : Number → Prop
  | int n => n.natAbs < 10 ^ Fault.digitLimit
  | float x => x.Settled

theorem Number.Regular.readsBack {n : Number} (h : n.Regular) : n.ReadsBack := by
  cases n with
  | int n => exact readsBack_int h
  | float x => exact readsBack_float h

namespace Json

/-! ### Numbers -/

theorem digitsValue_lt {cs : List Char} (h : ∀ c ∈ cs, c.isDigit) :
    Text.digitsValue cs < 10 ^ cs.length := by
  induction cs using List.reverseRecOn with
  | nil => exact Nat.one_pos
  | append_singleton cs c ih =>
    have hcs := ih fun d hd => h d (List.mem_append_left _ hd)
    have hc : Text.digitsValue [c] < 10 := by
      have hc := h c (by simp)
      simp only [Char.isDigit, Bool.and_eq_true, decide_eq_true_eq, UInt32.le_iff_toNat_le] at hc
      have h9 : c.toNat ≤ 57 := hc.2
      simp [Text.digitsValue]; omega
    rw [Text.digitsValue_append, List.length_append, List.length_singleton, pow_one, pow_succ]
    omega

theorem isDigit_wholePart (cs : List Char) : ∀ c ∈ (wholePart cs).1, c.isDigit := by
  unfold wholePart
  split
  · simp
  · intro c hc
    exact List.mem_takeWhile_imp hc

theorem regular_of_numberRest {start cs rest : List Char} {negative : Bool} {v : Json}
    (h : numberRest start negative cs = .ok (v, rest)) : ∃ n : Number, v = .num n ∧ n.Regular := by
  have hw := isDigit_wholePart cs
  have hn : ∀ n : ℕ, (Text.signed negative n).natAbs = n := by
    cases negative <;> simp [Text.signed]
  unfold numberRest at h
  dsimp only at h
  split at h
  · cases h
  · split at h
    · split at h
      · cases h
      · rename_i hl
        cases h
        refine ⟨_, rfl, ?_⟩
        have h := digitsValue_lt hw
        have hm := Nat.pow_le_pow_right (n := 10) (by decide) (Nat.not_lt.1 hl)
        rw [Number.Regular, hn]
        omega
    · cases h
      exact ⟨_, rfl, Decimal.settled_toBinary64 _⟩

/-- A word stands for null, a truth value, or a number that is not finite. -/
theorem value_of_word? {cs rest : List Char} {v : Json} (h : word? cs = some (v, rest)) :
    v = .null ∨ (∃ b, v = .bool b) ∨ ∃ n : Number, v = .num n ∧ n.Regular := by
  obtain ⟨⟨w, v'⟩, hw, h⟩ := List.exists_of_findSome?_eq_some h
  dsimp only at h
  split at h
  · cases h
    simp only [words, List.mem_cons, Prod.mk.injEq, List.not_mem_nil, or_false] at hw
    rcases hw with ⟨-, rfl⟩ | ⟨-, rfl⟩ | ⟨-, rfl⟩ | ⟨-, rfl⟩ | ⟨-, rfl⟩ | ⟨-, rfl⟩
    · exact .inl rfl
    · exact .inr (.inl ⟨_, rfl⟩)
    · exact .inr (.inl ⟨_, rfl⟩)
    · exact .inr (.inr ⟨_, rfl, trivial⟩)
    · exact .inr (.inr ⟨_, rfl, trivial⟩)
    · exact .inr (.inr ⟨_, rfl, trivial⟩)
  · cases h

/-- A number that is not read inside a list or an object is one that a document can give. -/
theorem regular_of_valueWith {f : Failure} {cs rest : List Char} {n : Number}
    (h : valueWith (fun _ => .error f) (fun _ => .error f) cs = .ok (.num n, rest)) :
    n.Regular := by
  have hnumber : ∀ {start cs negative}, numberRest start negative cs = .ok (.num n, rest) →
      n.Regular := fun h => by
    obtain ⟨_, hn, hr⟩ := regular_of_numberRest h
    cases hn; exact hr
  unfold valueWith at h
  split at h
  · rename_i after
    cases ht : textRest ('"' :: after) [] after with
    | error f => rw [ht] at h; cases h
    | ok r => rw [ht] at h; cases h
  · cases h
  · cases h
  · split at h
    · rename_i hw
      cases h
      obtain h | ⟨_, h⟩ | ⟨_, h, hn⟩ := value_of_word? hw
      · cases h
      · cases h
      · cases h; exact hn
    · split at h
      · exact hnumber h
      · exact hnumber h

end Json

/-- **The numbers that are read back are those that a document can give.** -/
theorem Number.readsBack_iff {n : Number} : n.ReadsBack ↔ n.Regular := by
  refine ⟨fun h => ?_, Number.Regular.readsBack⟩
  have hread := h (fun _ => .error (.tooDeep .list)) (fun _ => .error (.tooDeep .list)) []
    Json.follows_nil
  exact Json.regular_of_valueWith hread

namespace Json

/-! ### Readings -/

/-- What the reading gives is read back where `d` more lists and objects may be opened. -/
def Yields (d : ℕ) (r : Reading Json) : Prop := ∀ v rest, r = .ok (v, rest) → Readable d v

theorem yields_error {d : ℕ} (f : Failure) : Yields d (.error f) := fun _ _ h => nomatch h

theorem yields_ok {d : ℕ} {v : Json} (h : Readable d v) (rest : List Char) :
    Yields d (.ok (v, rest)) := by
  intro v' rest' he
  cases he; exact h

theorem yields_numberRest (d : ℕ) (start : List Char) (negative : Bool) (cs : List Char) :
    Yields d (numberRest start negative cs) := by
  intro v rest h
  obtain ⟨n, rfl, hn⟩ := regular_of_numberRest h
  exact .num d hn.readsBack

theorem readable_of_word? {cs rest : List Char} {v : Json} (h : word? cs = some (v, rest)) (d : ℕ) :
    Readable d v := by
  obtain rfl | ⟨b, rfl⟩ | ⟨n, rfl, hn⟩ := value_of_word? h
  · exact .null d
  · exact .bool d b
  · exact .num d hn.readsBack

/-! ### Entries -/

section

variable {α : Type}

theorem keys_insert (key : String) (v : α) (es : List (String × α)) :
    (key ∈ es.map Prod.fst ∧ (insert key v es).map Prod.fst = es.map Prod.fst) ∨
      key ∉ es.map Prod.fst ∧ (insert key v es).map Prod.fst = es.map Prod.fst ++ [key] := by
  by_cases h : key ∈ es.map Prod.fst
  · refine .inl ⟨h, ?_⟩
    induction es with
    | nil => cases h
    | cons e es ih =>
      rw [insert]
      split
      · rfl
      · rename_i hk
        rcases List.mem_cons.1 h with h | h
        · exact absurd h.symm hk
        · rw [List.map_cons, List.map_cons, ih h]
  · right
    rw [insert_fresh h, List.map_append]
    exact ⟨h, rfl⟩

theorem mem_keys_insert {key key' : String} {v : α} {es : List (String × α)} :
    key' ∈ (insert key v es).map Prod.fst ↔ key' = key ∨ key' ∈ es.map Prod.fst := by
  rcases keys_insert key v es with ⟨hmem, hk⟩ | ⟨-, hk⟩
  · rw [hk, or_iff_right_of_imp fun h => h ▸ hmem]
  · rw [hk, List.mem_append, List.mem_singleton, or_comm]

theorem nodup_insert {key : String} {v : α} {es : List (String × α)}
    (h : (es.map Prod.fst).Nodup) : ((insert key v es).map Prod.fst).Nodup := by
  rcases keys_insert key v es with ⟨-, hk⟩ | ⟨hk, he⟩
  · rwa [hk]
  · rw [he]
    exact h.append (List.nodup_singleton _) (by simpa using hk)

theorem forall_mem_insert {P : α → Prop} {key : String} {v : α} {es : List (String × α)}
    (hv : P v) (h : ∀ e ∈ es, P e.2) : ∀ e ∈ insert key v es, P e.2 := by
  induction es with
  | nil => simpa [insert] using hv
  | cons e es ih =>
    obtain ⟨he, hes⟩ := List.forall_mem_cons.1 h
    rw [insert]
    split
    · exact List.forall_mem_cons.2 ⟨hv, hes⟩
    · exact List.forall_mem_cons.2 ⟨he, ih hes⟩

end

/-! ### Values -/

section

variable {d : ℕ} {list object : List Char → Reading Json}

theorem yields_valueWith (hl : ∀ cs, Yields d (list cs)) (ho : ∀ cs, Yields d (object cs))
    (cs : List Char) : Yields d (valueWith list object cs) := by
  unfold valueWith
  split
  · rename_i rest
    intro v after h
    cases ht : textRest ('"' :: rest) [] rest with
    | error f => rw [ht] at h; cases h
    | ok r => rw [ht] at h; cases h; exact .str d _
  · exact hl _
  · exact ho _
  · split
    · rename_i hw
      exact yields_ok (readable_of_word? hw d) _
    · split
      · exact yields_numberRest d _ _ _
      · exact yields_numberRest d _ _ _

end

section

variable {d : ℕ} {value : List Char → Reading Json}

theorem yields_items (hv : ∀ cs, Yields d (value cs)) (fuel : ℕ) {seen : List Json}
    (hs : ∀ v ∈ seen, Readable d v) (cs : List Char) :
    Yields (d + 1) (items value fuel seen cs) := by
  induction fuel generalizing seen cs with
  | zero => exact yields_error _
  | succ fuel ih =>
    rw [items]
    split
    · exact yields_error _
    · rename_i v rest hr
      have hs : ∀ w ∈ v :: seen, Readable d w := List.forall_mem_cons.2 ⟨hv _ _ _ hr, hs⟩
      split
      · exact yields_ok (.arr fun w hw => hs w (List.mem_reverse.1 hw)) _
      · exact ih hs _
      · exact yields_error _

theorem yields_listRest (hv : ∀ cs, Yields d (value cs)) (cs : List Char) :
    Yields (d + 1) (listRest value cs) := by
  unfold listRest
  split
  · exact yields_ok (.arr (by simp)) _
  · exact yields_items hv _ (by simp) _

theorem yields_fields (hv : ∀ cs, Yields d (value cs)) (fuel : ℕ) {seen : List (String × Json)}
    (hk : (seen.map Prod.fst).Nodup) (hs : ∀ e ∈ seen, Readable d e.2) (cs : List Char) :
    Yields (d + 1) (fields value fuel seen cs) := by
  induction fuel generalizing seen cs with
  | zero => exact yields_error _
  | succ fuel ih =>
    unfold fields
    split
    · split
      · exact yields_error _
      · split
        · split
          · exact yields_error _
          · rename_i v rest hr
            have hv := hv _ _ _ hr
            split
            · exact yields_ok (.obj (nodup_insert hk) (forall_mem_insert hv hs)) _
            · exact ih (nodup_insert hk) (forall_mem_insert hv hs) _
            · exact yields_error _
        · exact yields_error _
    · exact yields_error _

theorem yields_objectRest (hv : ∀ cs, Yields d (value cs)) (cs : List Char) :
    Yields (d + 1) (objectRest value cs) := by
  unfold objectRest
  split
  · exact yields_ok (.obj (by simp) (by simp)) _
  · exact yields_fields hv _ (by simp) (by simp) _

end

theorem yields_value (d : ℕ) (cs : List Char) : Yields d (value d cs) := by
  induction d generalizing cs with
  | zero => exact yields_valueWith (fun _ => yields_error _) (fun _ => yields_error _) cs
  | succ d ih => exact yields_valueWith (yields_listRest ih) (yields_objectRest ih) cs

/-- **What is read is read back.** -/
theorem readable_of_read {s : String} {d : ℕ} {v : Json} (h : read s d = .ok v) : Readable d v := by
  have hv := yields_value d (skipSpace s.toList)
  unfold read at h
  dsimp only at h
  split at h
  · cases h
  · split at h
    · cases h
    · rename_i v' rest hr
      split at h
      · cases h; exact hv _ _ hr
      · cases h

end Json

end ErCanvas
