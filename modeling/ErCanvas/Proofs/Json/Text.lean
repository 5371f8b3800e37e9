import ErCanvas.Json.Printer
import ErCanvas.Json.Reader
import ErCanvas.Proofs.Text.Spelling

/-! # Texts read back

A text in its written form is read back whole, whatever characters it is made of: the quote, the
backslash and the controls are escaped, and each escape stands for the character that it was
written for. -/

namespace ErCanvas.Json

/-! ### Codes -/

theorem hexadecimal_control : ∀ n < 32,
    (Text.hexadecimal 4 n).length = 4 ∧ code? (Text.hexadecimal 4 n) = some n := by decide

theorem code?_append {cs : List Char} (h : 4 ≤ cs.length) (rest : List Char) :
    code? (cs ++ rest) = code? cs := by
  match cs, h with
  | a :: b :: c :: d :: _, _ => rfl

theorem spelling_control {c : Char} (h : c.toNat < 32) : Text.spelling c.toNat = [c] := by
  refine Text.spelling_toNat ?_
  rintro rfl
  exact absurd h (by decide)

/-- An escape of four digits stands for the code of a control, whatever comes behind it. -/
theorem codeEscape_control {c : Char} (h : c.toNat < 32) (start : List Char) {rest : List Char}
    (hr : rest ≠ []) :
    codeEscape start (Text.hexadecimal 4 c.toNat ++ rest) = .ok (c.toNat, 4) := by
  obtain ⟨hl, hc⟩ := hexadecimal_control _ h
  have hn : ¬(Text.hexadecimal 4 c.toNat ++ rest).length < 5 := by
    have := List.length_pos_iff.2 hr
    rw [List.length_append, hl]; omega
  have hf : Text.isFirstHalf c.toNat = false := by simp [Text.isFirstHalf]; omega
  rw [codeEscape, if_neg hn, code?_append (by omega), hc, List.drop_left' hl]
  simp only [hf]
  split <;> rfl

/-! ### Characters -/

section

variable (opening seen : List Char)

theorem textRest_quote (rest : List Char) :
    textRest opening seen ('"' :: rest) = .ok (String.ofList seen.reverse, rest) := by
  rw [textRest.eq_def]; rfl

theorem textRest_letter {e c : Char} (h : letterEscape? e = some c) (he : e ≠ 'u')
    (rest : List Char) :
    textRest opening seen ('\\' :: e :: rest) = textRest opening (c :: seen) rest := by
  rw [textRest, if_neg (by decide), if_pos rfl]
  simp only [if_neg he, h]

theorem textRest_control {c : Char} (h : c.toNat < 32) {rest : List Char} (hr : rest ≠ []) :
    textRest opening seen ('\\' :: 'u' :: Text.hexadecimal 4 c.toNat ++ rest) =
      textRest opening (c :: seen) rest := by
  rw [List.cons_append, List.cons_append, textRest, if_neg (by decide), if_pos rfl]
  simp only [if_pos, codeEscape_control h _ hr, List.drop_left' (hexadecimal_control _ h).1,
    spelling_control h]
  rfl

theorem textRest_plain {c : Char} (hq : c ≠ '"') (hb : c ≠ '\\') (h : ¬c.toNat < 32)
    (rest : List Char) : textRest opening seen (c :: rest) = textRest opening (c :: seen) rest := by
  rw [textRest.eq_def]; simp only [if_neg hq, if_neg hb, if_neg h]

/-- A character in its written form is read as that character. -/
theorem textRest_escapeChar (c : Char) {rest : List Char} (hr : rest ≠ []) :
    textRest opening seen (escapeChar c ++ rest) = textRest opening (c :: seen) rest := by
  unfold escapeChar
  -- the escapes of one letter, in the order in which they are tried
  split
  · subst c; exact textRest_letter _ _ rfl (by decide) rest
  split
  · subst c; exact textRest_letter _ _ rfl (by decide) rest
  split
  · subst c; exact textRest_letter _ _ rfl (by decide) rest
  split
  · subst c; exact textRest_letter _ _ rfl (by decide) rest
  split
  · subst c; exact textRest_letter _ _ rfl (by decide) rest
  split
  · subst c; exact textRest_letter _ _ rfl (by decide) rest
  split
  · subst c; exact textRest_letter _ _ rfl (by decide) rest
  rename_i hq hb _ _ _ _ _
  split
  · exact textRest_control _ _ ‹_› hr
  · exact textRest_plain _ _ hq hb ‹_› rest

end

/-! ### Texts -/

theorem textRest_escaped (opening seen cs rest : List Char) :
    textRest opening seen (cs.flatMap escapeChar ++ '"' :: rest) =
      .ok (String.ofList (seen.reverse ++ cs), rest) := by
  induction cs generalizing seen with
  | nil => simpa using textRest_quote opening seen rest
  | cons c cs ih =>
    rw [List.flatMap_cons, List.append_assoc, textRest_escapeChar _ _ c (by simp), ih]
    simp

/-- A written text is read back behind its opening quote. -/
theorem textRest_text (opening : List Char) (s : String) (rest : List Char) :
    textRest opening [] (s.toList.flatMap escapeChar ++ '"' :: rest) = .ok (s, rest) := by
  rw [textRest_escaped]
  simp

theorem writeText_append (s : String) (rest : List Char) :
    writeText s ++ rest = '"' :: (s.toList.flatMap escapeChar ++ '"' :: rest) := by
  simp [writeText]

end ErCanvas.Json
