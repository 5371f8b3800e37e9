import ErCanvas.Proofs.Json.Read

/-! # How wide a document is

Every item of a list takes up a part of the text, so that no list in a document has more items than the
text has characters.

* `Narrow`: the values without a list that is too long.
* `Keeps`: what a reader gives and leaves of a text.
* `narrow_of_read`: the lists of a document that is read. -/

namespace ErCanvas.Json

/-- No list in the value has more than `n` items. -/
inductive Narrow (n : ℕ) : Json → Prop where
  | null : Narrow n .null
  | bool (b : Bool) : Narrow n (.bool b)
  | num (m : Number) : Narrow n (.num m)
  | str (s : String) : Narrow n (.str s)
  | arr {items : List Json} (hn : items.length ≤ n) (h : ∀ v ∈ items, Narrow n v) :
    Narrow n (.arr items)
  | obj {entries : List (String × Json)} (h : ∀ e ∈ entries, Narrow n e.2) : Narrow n (.obj entries)

/-- What the reading gives is narrow, and what it leaves is no longer than `n`. -/
def Keeps (n : ℕ) (r : Reading Json) : Prop :=
  ∀ v rest, r = .ok (v, rest) → Narrow n v ∧ rest.length ≤ n

theorem keeps_error {n : ℕ} (f : Failure) : Keeps n (.error f) := fun _ _ h => nomatch h

theorem keeps_ok {n : ℕ} {v : Json} {rest : List Char} (hv : Narrow n v) (hn : rest.length ≤ n) :
    Keeps n (.ok (v, rest)) := by
  intro _ _ h
  cases h
  exact ⟨hv, hn⟩

/-! ### Texts and numbers -/

theorem length_skipSpace_le (cs : List Char) : (skipSpace cs).length ≤ cs.length :=
  (List.dropWhile_sublist _).length_le

theorem length_of_textRest {opening seen cs rest : List Char} {s : String}
    (h : textRest opening seen cs = .ok (s, rest)) : rest.length ≤ cs.length := by
  fun_induction textRest opening seen cs with
  | case1 | case3 | case7 | case8 => cases h
  | case2 => cases h; exact Nat.le_succ _
  | case4 seen rest' f _ hcode =>
    rw [hcode] at h
    cases h
  | case5 seen rest' x n _ hcode ih =>
    rw [hcode] at h
    have hn := ih h
    simp only [List.length_drop, List.length_cons] at hn ⊢
    omega
  | case6 seen e rest' _ _ x _ ih =>
    have hn := ih h
    simp only [List.length_cons]
    omega
  | case9 seen c rest' _ _ _ ih => exact (ih h).trans (Nat.le_succ _)

theorem length_spanDigits_le (cs : List Char) : (Text.spanDigits cs).2.length ≤ cs.length :=
  (List.dropWhile_sublist _).length_le

theorem length_wholePart_le (cs : List Char) : (wholePart cs).2.length ≤ cs.length := by
  unfold wholePart
  split
  · exact Nat.le_succ _
  · exact length_spanDigits_le cs

theorem length_fractionPart_le (cs : List Char) : (fractionPart cs).2.length ≤ cs.length := by
  unfold fractionPart
  split
  · split
    · exact (length_spanDigits_le _).trans (Nat.le_succ _)
    · exact le_rfl
  · exact le_rfl

theorem length_splitSign_le (cs : List Char) : (Text.splitSign cs).2.length ≤ cs.length := by
  unfold Text.splitSign
  split
  · exact Nat.le_succ _
  · exact Nat.le_succ _
  · exact le_rfl

theorem length_exponentPart_le (cs : List Char) : (exponentPart cs).2.length ≤ cs.length := by
  unfold exponentPart
  split
  · exact le_rfl
  · rename_i c rest
    split
    · dsimp only
      split
      · exact le_rfl
      · exact ((length_spanDigits_le _).trans (length_splitSign_le rest)).trans (Nat.le_succ _)
    · exact le_rfl

variable {n : ℕ} {cs : List Char}

theorem keeps_numberRest (start : List Char) (negative : Bool) (h : cs.length ≤ n) :
    Keeps n (numberRest start negative cs) := by
  have hw := length_wholePart_le cs
  have hf := length_fractionPart_le (wholePart cs).2
  have he := length_exponentPart_le (fractionPart (wholePart cs).2).2
  have hn := ((he.trans hf).trans hw).trans h
  unfold numberRest
  dsimp only
  split
  · exact keeps_error _
  · split
    · split
      · exact keeps_error _
      · exact keeps_ok (.num _) hn
    · exact keeps_ok (.num _) hn

theorem keeps_word? {v : Json} {rest : List Char} (h : cs.length ≤ n) (hw : word? cs = some (v, rest)) :
    Keeps n (.ok (v, rest)) := by
  have hv : Narrow n v := by
    obtain rfl | ⟨b, rfl⟩ | ⟨m, rfl, -⟩ := value_of_word? hw
    · exact .null
    · exact .bool b
    · exact .num m
  obtain ⟨⟨w, v'⟩, -, hw⟩ := List.exists_of_findSome?_eq_some hw
  dsimp only at hw
  split at hw
  · cases hw
    exact keeps_ok hv ((List.drop_sublist _ _).length_le.trans h)
  · cases hw

/-! ### Values -/

section

variable {list object : List Char → Reading Json}

/-- A list or an object is read behind its opening bracket, from a shorter text. -/
theorem keeps_valueWith (hl : ∀ cs, cs.length < n → Keeps n (list cs))
    (ho : ∀ cs, cs.length < n → Keeps n (object cs)) (h : cs.length ≤ n) :
    Keeps n (valueWith list object cs) := by
  unfold valueWith
  split
  · rename_i rest
    intro v after hv
    cases ht : textRest ('"' :: rest) [] rest with
    | error f => rw [ht] at hv; cases hv
    | ok r =>
      rw [ht] at hv
      cases hv
      exact ⟨.str _, (length_of_textRest ht).trans ((Nat.le_succ _).trans h)⟩
  · exact hl _ h
  · exact ho _ h
  · split
    · exact keeps_word? h ‹_›
    · split
      · exact keeps_numberRest _ _ ((Nat.le_succ _).trans h)
      · exact keeps_numberRest _ _ h

end

section

variable {value : List Char → Reading Json}

theorem keeps_items (hv : ∀ cs, cs.length ≤ n → Keeps n (value cs)) (fuel : ℕ) {seen : List Json}
    (hs : ∀ v ∈ seen, Narrow n v) (hn : fuel + seen.length ≤ n) (h : cs.length ≤ n) :
    Keeps n (items value fuel seen cs) := by
  -- every round reads one item, so the items read and the rounds left are `n` at most, together
  induction fuel generalizing seen cs with
  | zero => exact keeps_error _
  | succ fuel ih =>
    rw [items]
    split
    · exact keeps_error _
    · rename_i v rest hr
      obtain ⟨hv, hrest⟩ := hv cs h _ _ hr
      have hspace := (length_skipSpace_le rest).trans hrest
      have hs : ∀ w ∈ v :: seen, Narrow n w := List.forall_mem_cons.2 ⟨hv, hs⟩
      have hn : fuel + (v :: seen).length ≤ n := by rw [List.length_cons]; omega
      split
      · rename_i after ha
        rw [ha] at hspace
        refine keeps_ok (.arr ?_ fun w hw => hs w (List.mem_reverse.1 hw)) ((Nat.le_succ _).trans hspace)
        rw [List.length_reverse]
        exact (Nat.le_add_left _ _).trans hn
      · rename_i after ha
        rw [ha] at hspace
        exact ih hs hn ((length_skipSpace_le after).trans ((Nat.le_succ _).trans hspace))
      · exact keeps_error _

theorem keeps_listRest (hv : ∀ cs, cs.length ≤ n → Keeps n (value cs)) (h : cs.length < n) :
    Keeps n (listRest value cs) := by
  have hspace := length_skipSpace_le cs
  unfold listRest
  split
  · rename_i rest hr
    rw [hr, List.length_cons] at hspace
    exact keeps_ok (.arr (Nat.zero_le _) (by simp)) (by omega)
  · exact keeps_items hv _ (by simp) (hspace.trans_lt h) (hspace.trans h.le)

theorem keeps_fields (hv : ∀ cs, cs.length ≤ n → Keeps n (value cs)) (fuel : ℕ)
    {seen : List (String × Json)} (hs : ∀ e ∈ seen, Narrow n e.2) (h : cs.length ≤ n) :
    Keeps n (fields value fuel seen cs) := by
  induction fuel generalizing seen cs with
  | zero => exact keeps_error _
  | succ fuel ih =>
    unfold fields
    split
    · rename_i afterQuote
      split
      · exact keeps_error _
      · rename_i k afterKey hk
        have hkey := (length_of_textRest hk).trans ((Nat.le_succ _).trans h)
        split
        · rename_i afterColon hcolon
          have hcolon : afterColon.length ≤ n := by
            have hspace := (length_skipSpace_le afterKey).trans hkey
            rw [hcolon] at hspace
            exact (Nat.le_succ _).trans hspace
          split
          · exact keeps_error _
          · rename_i v rest hr
            obtain ⟨hv, hrest⟩ := hv _ ((length_skipSpace_le afterColon).trans hcolon) _ _ hr
            have hspace := (length_skipSpace_le rest).trans hrest
            split
            · rename_i after ha
              rw [ha] at hspace
              exact keeps_ok (.obj (forall_mem_insert hv hs)) ((Nat.le_succ _).trans hspace)
            · rename_i after ha
              rw [ha] at hspace
              exact ih (forall_mem_insert hv hs)
                ((length_skipSpace_le after).trans ((Nat.le_succ _).trans hspace))
            · exact keeps_error _
        · exact keeps_error _
    · exact keeps_error _

theorem keeps_objectRest (hv : ∀ cs, cs.length ≤ n → Keeps n (value cs)) (h : cs.length < n) :
    Keeps n (objectRest value cs) := by
  have hspace := (length_skipSpace_le cs).trans h.le
  unfold objectRest
  split
  · rename_i rest hr
    rw [hr] at hspace
    exact keeps_ok (.obj (by simp)) ((Nat.le_succ _).trans hspace)
  · exact keeps_fields hv _ (by simp) hspace

end

theorem keeps_value (d : ℕ) (h : cs.length ≤ n) : Keeps n (value d cs) := by
  induction d generalizing cs with
  | zero => exact keeps_valueWith (fun _ _ => keeps_error _) (fun _ _ => keeps_error _) h
  | succ d ih =>
    exact keeps_valueWith (fun _ => keeps_listRest fun _ => ih) (fun _ => keeps_objectRest fun _ => ih) h

/-- **No list in a document has more items than its text has characters.** -/
theorem narrow_of_read {s : String} {d : ℕ} {v : Json} (h : read s d = .ok v) : Narrow s.length v := by
  have hv : Keeps s.length (value d (skipSpace s.toList)) :=
    keeps_value d (length_skipSpace_le s.toList)
  unfold read at h
  dsimp only at h
  split at h
  · cases h
  · split at h
    · cases h
    · rename_i v' rest hr
      split at h
      · cases h; exact (hv _ _ hr).1
      · cases h

/-! ### Parts of narrow values -/

theorem Narrow.find? {key : String} {es : List (String × Json)} {w : Json} (h : Narrow n (.obj es))
    (hw : Json.find? key es = some w) : Narrow n w := by
  cases h with
  | obj h => exact h _ (mem_of_find? hw)

end ErCanvas.Json
