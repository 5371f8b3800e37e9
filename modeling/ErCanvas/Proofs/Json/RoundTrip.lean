import ErCanvas.Proofs.Json.Numeral
import ErCanvas.Proofs.Json.Text

/-! # Documents read back

A document in its written form is read as itself, if it opens no more lists and objects than may be
open, if no object has two entries with the same key, and if its numbers are read back.

* `Readable`: the values that are read back, with the depth that they need.
* `read_print`: what is printed is read. -/

namespace ErCanvas.Json

/-- The values that are read back where `d` more lists and objects may be opened. -/
inductive Readable : ℕ → Json → Prop where
  | null (d : ℕ) : Readable d .null
  | bool (d : ℕ) (b : Bool) : Readable d (.bool b)
  | num (d : ℕ) {n : Number} (h : n.ReadsBack) : Readable d (.num n)
  | str (d : ℕ) (s : String) : Readable d (.str s)
  | arr {d : ℕ} {items : List Json} (h : ∀ v ∈ items, Readable d v) : Readable (d + 1) (.arr items)
  | obj {d : ℕ} {entries : List (String × Json)} (hk : (entries.map Prod.fst).Nodup)
      (h : ∀ e ∈ entries, Readable d e.2) : Readable (d + 1) (.obj entries)

section

variable {d : ℕ}

@[simp] theorem readable_null : Readable d .null := .null d

@[simp] theorem readable_bool {b : Bool} : Readable d (.bool b) := .bool d b

@[simp] theorem readable_str {s : String} : Readable d (.str s) := .str d s

@[simp] theorem readable_num {n : Number} : Readable d (.num n) ↔ n.ReadsBack :=
  ⟨fun h => by cases h; assumption, .num d⟩

@[simp] theorem readable_arr {items : List Json} :
    Readable (d + 1) (.arr items) ↔ ∀ v ∈ items, Readable d v :=
  ⟨fun h => by cases h; assumption, .arr⟩

@[simp] theorem readable_obj {entries : List (String × Json)} : Readable (d + 1) (.obj entries) ↔
    (entries.map Prod.fst).Nodup ∧ ∀ e ∈ entries, Readable d e.2 :=
  ⟨fun h => by cases h; exact ⟨‹_›, ‹_›⟩, fun h => .obj h.1 h.2⟩

end

theorem Readable.mono {d d' : ℕ} {v : Json} (h : Readable d v) (hd : d ≤ d') : Readable d' v := by
  induction h generalizing d' with
  | null d => exact .null d'
  | bool d b => exact .bool d' b
  | num d h => exact .num d' h
  | str d s => exact .str d' s
  | arr _ ih =>
    obtain ⟨e, rfl⟩ := Nat.exists_eq_add_one.2 (Nat.zero_lt_of_lt hd)
    exact .arr fun v hv => ih v hv (by omega)
  | obj hk _ ih =>
    obtain ⟨e, rfl⟩ := Nat.exists_eq_add_one.2 (Nat.zero_lt_of_lt hd)
    exact .obj hk fun v hv => ih v hv (by omega)

/-- What is found at a key is an entry. -/
theorem mem_of_find? {key : String} {es : List (String × Json)} {v : Json} (h : find? key es = some v) :
    (key, v) ∈ es := by
  induction es with
  | nil => cases h
  | cons e es ih =>
    rw [find?] at h
    split at h
    · rename_i hk
      cases h
      exact hk ▸ .head _
    · exact .tail _ (ih h)

/-- The value is read from its written form, whatever follows it. -/
def ReadAt (d : ℕ) (v : Json) : Prop :=
  ∀ k rest, Follows rest → value d (write k v ++ rest) = .ok (v, rest)

/-! ### White space -/

theorem skipSpace_cons {c : Char} (h : isSpace c = false) (cs : List Char) :
    skipSpace (c :: cs) = c :: cs := by simp [skipSpace, h]

theorem skipSpace_newLine (d : ℕ) (cs : List Char) :
    skipSpace (newLine d ++ cs) = skipSpace cs := by
  have h : ∀ n, skipSpace (List.replicate n ' ' ++ cs) = skipSpace cs := by
    intro n
    induction n with
    | zero => rfl
    | succ n ih => exact ih
  exact h (2 * d)

/-! ### The start of a value -/

theorem value_eq (d : ℕ) : ∃ list object, value d = valueWith list object := by
  cases d with
  | zero => exact ⟨_, _, rfl⟩
  | succ d => exact ⟨_, _, rfl⟩

/-- The text starts like a value: neither with white space, nor with a closing bracket, nor with the
mark of a byte order. -/
structure Opens (cs : List Char) : Prop where
  skip : skipSpace cs = cs
  bracket : ∀ rest, cs ≠ ']' :: rest
  mark : cs.head? ≠ some '\uFEFF'

theorem opens_of_value {d : ℕ} {cs : List Char} {r : Json × List Char} (h : value d cs = .ok r) :
    Opens cs := by
  obtain ⟨list, object, hv⟩ := value_eq d
  rw [hv] at h
  refine ⟨?_, ?_, ?_⟩
  · cases cs with
    | nil => rfl
    | cons c cs =>
      -- no word and no number starts with white space
      refine skipSpace_cons (Bool.eq_false_iff.2 fun hc => ?_) cs
      simp only [isSpace, Bool.or_eq_true, beq_iff_eq] at hc
      rcases hc with ((rfl | rfl) | rfl) | rfl <;> cases h
  · rintro rest rfl; cases h
  · intro hm
    cases cs with
    | nil => cases hm
    | cons c cs => cases hm; cases h

theorem ReadAt.opens {d : ℕ} {v : Json} (h : ReadAt d v) (k : ℕ) {rest : List Char}
    (hr : Follows rest) : Opens (write k v ++ rest) := opens_of_value (h k rest hr)

/-! ### Lists -/

section

variable {d : ℕ} (j k : ℕ)

theorem length_writeItems (xs : List Json) : xs.length ≤ (writeItems k xs).length := by
  induction xs with
  | nil => exact Nat.le_refl _
  | cons x xs ih => simp only [writeItems, List.length_append, List.length_cons]; omega

theorem follows_items (xs : List Json) (cs : List Char) :
    Follows (writeItems k xs ++ (newLine j ++ cs)) := by
  cases xs with
  | nil => exact follows_newLine j cs
  | cons x xs => simpa [writeItems] using follows_comma _

theorem items_write {x : Json} {xs seen : List Json} (h : ∀ v ∈ x :: xs, ReadAt d v) {fuel : ℕ}
    (hf : xs.length < fuel) (rest : List Char) :
    items (value d) fuel seen (write k x ++ (writeItems k xs ++ (newLine j ++ ']' :: rest))) =
      .ok (arr (seen.reverse ++ x :: xs), rest) := by
  -- every item takes one unit of fuel
  induction xs generalizing x seen fuel with
  | nil =>
    obtain ⟨fuel, rfl⟩ := Nat.exists_eq_add_one.2 (Nat.zero_lt_of_lt hf)
    rw [items, h x (.head _) k _ (follows_items j k [] _)]
    simp only [writeItems, List.nil_append, skipSpace_newLine, skipSpace_cons (c := ']') rfl]
    simp
  | cons y ys ih =>
    obtain ⟨fuel, rfl⟩ := Nat.exists_eq_add_one.2 (Nat.zero_lt_of_lt hf)
    have hy := h y (.tail _ (.head _))
    rw [items, h x (.head _) k _ (follows_items j k (y :: ys) _)]
    simp only [writeItems, List.cons_append, List.append_assoc, skipSpace_cons (c := ',') rfl,
      skipSpace_newLine, (hy.opens k (follows_items j k ys _)).skip]
    rw [ih (fun v hv => h v (.tail _ hv)) (by simp at hf; omega)]
    simp

/-- A list of values that are read back is read back behind its opening bracket. -/
theorem listRest_write {x : Json} {xs : List Json} (h : ∀ v ∈ x :: xs, ReadAt d v)
    (rest : List Char) :
    listRest (value d)
      (newLine k ++ (write k x ++ (writeItems k xs ++ (newLine j ++ ']' :: rest)))) =
      .ok (arr (x :: xs), rest) := by
  have ho := (h x (.head _)).opens k (follows_items j k xs (']' :: rest))
  have hl := length_writeItems k xs
  unfold listRest
  rw [skipSpace_newLine, ho.skip]
  -- a list with an item does not close at once
  split
  · exact absurd ‹_› (ho.bracket _)
  · rw [items_write j k h (by simp only [List.length_append]; omega)]
    rfl

end

/-! ### Objects -/

theorem insert_fresh {α : Type} {key : String} {v : α} {es : List (String × α)}
    (h : key ∉ es.map Prod.fst) : insert key v es = es ++ [(key, v)] := by
  induction es with
  | nil => rfl
  | cons e es ih =>
    simp only [List.map_cons, List.mem_cons, not_or] at h
    rw [insert, if_neg (Ne.symm h.1), ih h.2]; rfl

theorem key_fresh {e : String × Json} {es seen : List (String × Json)}
    (hk : ((seen ++ e :: es).map Prod.fst).Nodup) : e.1 ∉ seen.map Prod.fst := by
  intro he
  rw [List.map_append, List.nodup_append] at hk
  exact hk.2.2 _ he _ (by simp) rfl

section

variable {d : ℕ} (j k : ℕ)

theorem length_writeEntries (es : List (String × Json)) :
    es.length ≤ (writeEntries k es).length := by
  induction es with
  | nil => exact Nat.le_refl _
  | cons e es ih => simp only [writeEntries, List.length_append, List.length_cons]; omega

theorem follows_entries (es : List (String × Json)) (cs : List Char) :
    Follows (writeEntries k es ++ (newLine j ++ cs)) := by
  cases es with
  | nil => exact follows_newLine j cs
  | cons e es => simpa [writeEntries] using follows_comma _

/-- One entry is read. Behind a closing bracket the object is complete, behind a comma the reading goes
on. -/
theorem fields_entry {e : String × Json} {seen : List (String × Json)} (h : ReadAt d e.2)
    (hk : e.1 ∉ seen.map Prod.fst) (fuel : ℕ) {rest after : List Char} (hr : Follows rest) :
    (skipSpace rest = '\x7d' :: after →
      fields (value d) (fuel + 1) seen (writeText e.1 ++ ':' :: ' ' :: (write k e.2 ++ rest)) =
        .ok (obj (seen ++ [e]), after)) ∧
    (skipSpace rest = ',' :: after →
      fields (value d) (fuel + 1) seen (writeText e.1 ++ ':' :: ' ' :: (write k e.2 ++ rest)) =
        fields (value d) fuel (seen ++ [e]) (skipSpace after)) := by
  have hs : skipSpace (' ' :: (write k e.2 ++ rest)) = write k e.2 ++ rest := (h.opens k hr).skip
  have hv := h k rest hr
  have hi : insert e.1 e.2 seen = seen ++ [e] := insert_fresh hk
  constructor
  · intro ha
    rw [writeText_append, fields]
    simp only [textRest_text, skipSpace_cons (c := ':') rfl, hs, hv, hi, ha]
  · intro ha
    rw [writeText_append, fields]
    simp only [textRest_text, skipSpace_cons (c := ':') rfl, hs, hv, hi, ha]

theorem skipSpace_writeText (s : String) (cs : List Char) :
    skipSpace (writeText s ++ cs) = writeText s ++ cs := by
  rw [writeText_append, skipSpace_cons rfl]

theorem fields_write {e : String × Json} {es seen : List (String × Json)}
    (h : ∀ e' ∈ e :: es, ReadAt d e'.2) (hk : ((seen ++ e :: es).map Prod.fst).Nodup) {fuel : ℕ}
    (hf : es.length < fuel) (rest : List Char) :
    fields (value d) fuel seen (writeText e.1 ++ ':' :: ' ' ::
      (write k e.2 ++ (writeEntries k es ++ (newLine j ++ '\x7d' :: rest)))) =
      .ok (obj (seen ++ e :: es), rest) := by
  induction es generalizing e seen fuel with
  | nil =>
    obtain ⟨fuel, rfl⟩ := Nat.exists_eq_add_one.2 (Nat.zero_lt_of_lt hf)
    refine (fields_entry k (h e (.head _)) (key_fresh hk) fuel (follows_entries j k [] _)).1 ?_
    simp only [writeEntries, List.nil_append, skipSpace_newLine, skipSpace_cons (c := '\x7d') rfl]
  | cons e' es ih =>
    obtain ⟨fuel, rfl⟩ := Nat.exists_eq_add_one.2 (Nat.zero_lt_of_lt hf)
    have hr := follows_entries j k (e' :: es) ('\x7d' :: rest)
    have hc : skipSpace (writeEntries k (e' :: es) ++ (newLine j ++ '\x7d' :: rest)) =
        ',' :: (newLine k ++ (writeText e'.1 ++ ':' :: ' ' ::
          (write k e'.2 ++ (writeEntries k es ++ (newLine j ++ '\x7d' :: rest))))) := by
      rw [writeEntries]
      simp only [List.append_assoc, List.cons_append, skipSpace_cons (c := ',') rfl]
    rw [(fields_entry k (h e (.head _)) (key_fresh hk) fuel hr).2 hc, skipSpace_newLine,
      skipSpace_writeText, ih (fun v hv => h v (.tail _ hv)) (by simpa using hk)
        (by simp at hf; omega)]
    simp

/-- An object whose keys are distinct and whose values are read back is read back behind its opening
bracket. -/
theorem objectRest_write {e : String × Json} {es : List (String × Json)}
    (h : ∀ e' ∈ e :: es, ReadAt d e'.2) (hk : ((e :: es).map Prod.fst).Nodup) (rest : List Char) :
    objectRest (value d) (newLine k ++ (writeText e.1 ++ ':' :: ' ' ::
      (write k e.2 ++ (writeEntries k es ++ (newLine j ++ '\x7d' :: rest))))) =
      .ok (obj (e :: es), rest) := by
  have hl := length_writeEntries k es
  unfold objectRest
  rw [skipSpace_newLine, skipSpace_writeText]
  split
  · rename_i h'
    rw [writeText_append] at h'; cases h'
  · rw [fields_write j k h (by simpa using hk)
      (by simp only [List.length_append, List.length_cons]; omega)]
    rfl

end

/-! ### Documents -/

/-- A readable value is read from its written form. -/
theorem Readable.readAt {d : ℕ} {v : Json} (h : Readable d v) : ReadAt d v := by
  induction h with
  | null d =>
    intro k rest _
    obtain ⟨list, object, hv⟩ := value_eq d
    rw [hv]; rfl
  | bool d b =>
    intro k rest _
    obtain ⟨list, object, hv⟩ := value_eq d
    rw [hv]; cases b <;> rfl
  | num d h =>
    intro k rest hr
    obtain ⟨list, object, hv⟩ := value_eq d
    rw [hv, write, h list object rest hr]
  | str d s =>
    intro k rest _
    obtain ⟨list, object, hv⟩ := value_eq d
    rw [hv, write, writeText_append, valueWith, textRest_text]; rfl
  | @arr d items _ ih =>
    intro k rest _
    cases items with
    | nil => rfl
    | cons x xs =>
      simp only [write, List.cons_append, List.append_assoc]
      exact listRest_write k (k + 1) ih rest
  | @obj d entries hk _ ih =>
    intro k rest _
    cases entries with
    | nil => rfl
    | cons e es =>
      simp only [write, List.cons_append, List.append_assoc]
      exact objectRest_write k (k + 1) ih hk rest

/-- **A readable document is read from its printed form.** -/
theorem read_print {d : ℕ} {v : Json} (h : Readable d v) : read (print v) d = .ok v := by
  have hv := h.readAt 0 [] follows_nil
  rw [List.append_nil] at hv
  have ho := opens_of_value hv
  have hl : (print v).toList = write 0 v := by simp [print]
  simp only [read, hl, if_neg ho.mark, ho.skip, hv]
  rfl

theorem readValue_print {d : ℕ} {v : Json} (h : Readable d v) :
    readValue (.str (print v)) d = .ok v := by
  simp only [readValue, read_print h]
  rfl

end ErCanvas.Json
