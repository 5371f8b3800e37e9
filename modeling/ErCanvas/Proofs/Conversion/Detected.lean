import ErCanvas.Conversion
import ErCanvas.Proofs.Json.Read
import ErCanvas.Proofs.Schema.Declared
import ErCanvas.Proofs.Text.Trim

/-! # The detected format

The detector and the reader of documents have different ideas of white space: the one drops all white
space of Unicode in front of a text, the other four ASCII blanks, and a mark of the byte order is white
space to neither. A document that declares a schema is an object, and what the reader leaves of its text
begins with a brace, which is no white space. So the detector comes to the same brace.

* `Json.head?_of_read`: an object is read from texts only whose first character behind the blanks of the
  format is a brace.
* `SourceFormat.detect_of_read`: such texts are detected.
* `Conversion.convert_detected`: what declares a schema is converted as a declaration. -/

namespace ErCanvas

namespace Json

variable {d : ℕ} {cs rest : List Char} {entries : List (String × Json)}

/-! ### How an object begins -/

/-- An object is read from nothing but a brace. -/
theorem head?_of_valueWith {list : List Char → Reading Json} {object : List Char → Reading Json}
    (hlist : ∀ after, list after ≠ .ok (.obj entries, rest))
    (h : valueWith list object cs = .ok (.obj entries, rest)) : cs.head? = some '\x7b' := by
  have hnumber : ∀ {start after negative}, numberRest start negative after ≠ .ok (.obj entries, rest) :=
    fun h => by
      obtain ⟨n, hn, -⟩ := regular_of_numberRest h
      cases hn
  unfold valueWith at h
  split at h
  · -- a text
    rename_i after
    cases ht : textRest ('"' :: after) [] after with
    | error f => rw [ht] at h; cases h
    | ok r => rw [ht] at h; cases h
  · exact absurd h (hlist _)
  · rfl
  · split at h
    · -- a word
      rename_i hw
      cases h
      rcases value_of_word? hw with h | ⟨_, h⟩ | ⟨_, h, -⟩ <;> cases h
    · split at h
      · exact absurd h hnumber
      · exact absurd h hnumber

theorem items_ne_obj {value : List Char → Reading Json} (fuel : ℕ) (seen : List Json)
    (cs : List Char) : items value fuel seen cs ≠ .ok (.obj entries, rest) := by
  induction fuel generalizing seen cs with
  | zero => exact nofun
  | succ fuel ih =>
    intro h
    rw [items] at h
    split at h
    · cases h
    · split at h
      · cases h
      · exact ih _ _ h
      · cases h

theorem listRest_ne_obj {value : List Char → Reading Json} (cs : List Char) :
    listRest value cs ≠ .ok (.obj entries, rest) := by
  intro h
  unfold listRest at h
  split at h
  · cases h
  · exact items_ne_obj _ _ _ h

theorem head?_of_value (h : value d cs = .ok (.obj entries, rest)) : cs.head? = some '\x7b' := by
  cases d with
  | zero =>
    have hlist : ∀ _ : List Char, (.error (.tooDeep .list) : Reading Json) ≠ .ok (.obj entries, rest) :=
      fun _ => nofun
    exact head?_of_valueWith hlist h
  | succ d => exact head?_of_valueWith (fun after => listRest_ne_obj after) h

/-- **An object is read** from texts only whose first character behind the blanks of the format is a
brace. -/
theorem head?_of_read {text : String} (h : read text = .ok (.obj entries)) :
    (skipSpace text.toList).head? = some '\x7b' := by
  unfold read at h
  dsimp only at h
  split at h
  · cases h
  · split at h
    · cases h
    · rename_i v rest hv
      split at h
      · cases h
        exact head?_of_value hv
      · cases h

/-! ### White space of the format -/

/-- The blanks of the format are white space. -/
theorem isBlank_of_isSpace {c : Char} (h : isSpace c = true) : Text.isBlank c = true := by
  simp only [isSpace, Bool.or_eq_true, beq_iff_eq] at h
  rcases h with ((rfl | rfl) | rfl) | rfl <;> rfl

/-- Where something else than white space stands behind the blanks of the format, all white space has
been skipped. -/
theorem trimStart_eq_skipSpace (h : ∀ c ∈ (skipSpace cs).head?, Text.isBlank c = false) :
    Text.trimStart cs = skipSpace cs := by
  have hsplit : cs.takeWhile isSpace ++ skipSpace cs = cs := List.takeWhile_append_dropWhile
  have hblank : Text.Blank (cs.takeWhile isSpace) :=
    fun c hc => isBlank_of_isSpace (List.mem_takeWhile_imp hc)
  have hrest : (skipSpace cs).dropWhile Text.isBlank = skipSpace cs := by
    cases hcs : skipSpace cs with
    | nil => rfl
    | cons c rest => exact List.dropWhile_cons_of_neg (by simp [h c (by rw [hcs]; rfl)])
  calc Text.trimStart cs = (cs.takeWhile isSpace ++ skipSpace cs).dropWhile Text.isBlank := by
        rw [hsplit, Text.trimStart]
    _ = (skipSpace cs).dropWhile Text.isBlank := Text.dropWhile_blank hblank _
    _ = skipSpace cs := hrest

end Json

/-! ### Detection -/

/-- **The text of an object** is taken for a declaration. -/
theorem SourceFormat.detect_of_read {text : String} {entries : List (String × Json)}
    (h : Json.read text = .ok (.obj entries)) : SourceFormat.detect text = .declaration := by
  have hhead := Json.head?_of_read h
  have htrim : Text.trimStart text.toList = Json.skipSpace text.toList := by
    refine Json.trimStart_eq_skipSpace fun c hc => ?_
    rw [hhead, Option.mem_some_iff] at hc
    subst hc
    rfl
  rw [detect, htrim, if_pos hhead]

/-- What declares a schema is the text of an object. -/
theorem Declaration.exists_read {text : String} (h : errorOf text = "") :
    ∃ entries, Json.read text = .ok (.obj entries) := by
  rcases extractFrom_fst text Json.depthLimit with ⟨document, hread, hext⟩ | ⟨-, d, hd⟩
  · cases hdocument : ofDocument document with
    | error d => exact absurd h (of_extract_error (hext.trans hdocument)).1
    | ok s =>
      obtain ⟨entries, rfl, -⟩ := (declares_of_ofDocument hdocument).tables
      exact ⟨entries, hread⟩
  · exact absurd h (of_extract_error hd).1

namespace Conversion

/-- **Detection loses no declaration.** A text that declares a schema is detected as a declaration. Whatever
the routes, its conversion with the format left open reports the same and comes to the same result as that
with the format given. -/
theorem convert_detected (text : String) (routes : Json) (h : Declaration.errorOf text = "") :
    SourceFormat.detect text = .declaration ∧
      convert (.str text) (.str "auto") routes = convert (.str text) (.str "json") routes := by
  obtain ⟨entries, hread⟩ := Declaration.exists_read h
  have hdetect := SourceFormat.detect_of_read hread
  have hname : formatName (.str text) (.str "auto") = formatName (.str text) (.str "json") := by
    have hdetected : formatName (.str text) (.str "auto") = .ok (SourceFormat.detect text).name := rfl
    rw [hdetected, hdetect]
    rfl
  exact ⟨hdetect, by simp only [convert, hname]⟩

/-- Blanks of all four kinds stand in front of the brace. -/
theorem convert_detected_indented : Declaration.errorOf "\r\n\t \x7b\"tables\": []\x7d" = "" ∧
    convert (.str "\r\n\t \x7b\"tables\": []\x7d") (.str "auto") (.str "grid") =
      convert (.str "\r\n\t \x7b\"tables\": []\x7d") (.str "json") (.str "grid") := by
  have h : Declaration.errorOf "\r\n\t \x7b\"tables\": []\x7d" = "" := by decide +kernel
  exact ⟨h, (convert_detected _ (.str "grid") h).2⟩

end Conversion

end ErCanvas
