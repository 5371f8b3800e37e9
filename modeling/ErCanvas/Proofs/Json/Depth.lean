import ErCanvas.Proofs.Json.RoundTrip

/-! # How deep a document may be

The depth that a reader allows for decides nothing about a text but whether it is too deep: wherever a
reader comes to an end, every reader that allows for more comes to the same end. How many lists and
objects may be open at once shows at lists inside one another.

* `Extends`: the second reading goes on where the first one is too deep.
* `read_extends`: what a greater depth changes.
* `Shallow`, `Shallow.read_eq`: texts that are not too deep.
* `value_brackets`, `value_brackets_of_lt`: lists inside one another are read up to the depth that is
  allowed for.
* `fields_comma`, `fields_last`, `fields_error`: one entry of an object, up to a comma, a bracket or a
  failure. -/

namespace ErCanvas.Json

/-! ### Greater depths -/

/-- The second reading is the first one, unless that one is too deep. -/
def Extends {α : Type} (r r' : Except Failure α) : Prop :=
  (∃ holder, r = .error (.tooDeep holder)) ∨ r' = r

theorem extends_rfl {α : Type} (r : Except Failure α) : Extends r r := .inr rfl

theorem extends_tooDeep {α : Type} (holder : Holder) (r : Except Failure α) :
    Extends (.error (.tooDeep holder)) r := .inl ⟨holder, rfl⟩

section

variable {list list' object object' value value' : List Char → Reading Json}

theorem extends_valueWith (hl : ∀ cs, Extends (list cs) (list' cs))
    (ho : ∀ cs, Extends (object cs) (object' cs)) (cs : List Char) :
    Extends (valueWith list object cs) (valueWith list' object' cs) := by
  unfold valueWith
  split
  · exact extends_rfl _
  · exact hl _
  · exact ho _
  · exact extends_rfl _

theorem extends_items (hv : ∀ cs, Extends (value cs) (value' cs)) (fuel : ℕ) (seen : List Json)
    (cs : List Char) : Extends (items value fuel seen cs) (items value' fuel seen cs) := by
  induction fuel generalizing seen cs with
  | zero => exact extends_rfl _
  | succ fuel ih =>
    rcases hv cs with ⟨holder, hdeep⟩ | heq
    · simp only [items, hdeep]
      exact extends_tooDeep _ _
    · simp only [items, heq]
      split
      · exact extends_rfl _
      · split
        · exact extends_rfl _
        · exact ih _ _
        · exact extends_rfl _

theorem extends_listRest (hv : ∀ cs, Extends (value cs) (value' cs)) (cs : List Char) :
    Extends (listRest value cs) (listRest value' cs) := by
  unfold listRest
  split
  · exact extends_rfl _
  · exact extends_items hv _ _ _

theorem extends_fields (hv : ∀ cs, Extends (value cs) (value' cs)) (fuel : ℕ)
    (seen : List (String × Json)) (cs : List Char) :
    Extends (fields value fuel seen cs) (fields value' fuel seen cs) := by
  induction fuel generalizing seen cs with
  | zero => exact extends_rfl _
  | succ fuel ih =>
    unfold fields
    split
    · split
      · exact extends_rfl _
      · split
        · rename_i rest _
          rcases hv (skipSpace rest) with ⟨holder, hdeep⟩ | heq
          · simp only [hdeep]
            exact extends_tooDeep _ _
          · simp only [heq]
            split
            · exact extends_rfl _
            · split
              · exact extends_rfl _
              · exact ih _ _
              · exact extends_rfl _
        · exact extends_rfl _
    · exact extends_rfl _

theorem extends_objectRest (hv : ∀ cs, Extends (value cs) (value' cs)) (cs : List Char) :
    Extends (objectRest value cs) (objectRest value' cs) := by
  unfold objectRest
  split
  · exact extends_rfl _
  · exact extends_fields hv _ _ _

end

theorem extends_value {d d' : ℕ} (h : d ≤ d') (cs : List Char) : Extends (value d cs) (value d' cs) := by
  induction d generalizing d' cs with
  | zero =>
    cases d' with
    | zero => exact extends_rfl _
    | succ d' => exact extends_valueWith (fun _ => extends_tooDeep _ _) (fun _ => extends_tooDeep _ _) cs
  | succ d ih =>
    obtain ⟨d', rfl⟩ := Nat.exists_eq_add_one.2 (Nat.zero_lt_of_lt h)
    have hd : d ≤ d' := Nat.le_of_succ_le_succ h
    exact extends_valueWith (extends_listRest (ih hd)) (extends_objectRest (ih hd)) cs

/-- **A greater depth changes nothing** about a text that is not too deep. -/
theorem read_extends {d d' : ℕ} (h : d ≤ d') (s : String) : Extends (read s d) (read s d') := by
  unfold read
  dsimp only
  split
  · exact extends_rfl _
  · rcases extends_value h (skipSpace s.toList) with ⟨holder, hdeep⟩ | heq
    · simp only [hdeep]
      exact extends_tooDeep _ _
    · simp only [heq]
      exact extends_rfl _

/-- The text is not too deep for a reader that allows for `d` open lists and objects. -/
def Shallow (d : ℕ) (s : String) : Prop := ∀ holder, read s d ≠ .error (.tooDeep holder)

theorem Shallow.read_eq {d d' : ℕ} {s : String} (hs : Shallow d s) (h : d ≤ d') :
    read s d' = read s d :=
  (read_extends h s).resolve_left fun ⟨holder, hdeep⟩ => hs holder hdeep

/-! ### Lists inside one another -/

/-- Lists inside one another, the innermost one empty. -/
def nested : ℕ → Json
  | 0 => arr []
  | n + 1 => arr [nested n]

/-- Behind an opening bracket there is an item. -/
theorem listRest_bracket (value : List Char → Reading Json) (cs : List Char) :
    listRest value ('[' :: cs) = items value (cs.length + 2) [] ('[' :: cs) := rfl

/-- **Lists inside one another are read** as long as their depth is allowed for. -/
theorem value_brackets {n d : ℕ} (h : n < d) (rest : List Char) :
    value d (List.replicate (n + 1) '[' ++ (List.replicate (n + 1) ']' ++ rest)) =
      .ok (nested n, rest) := by
  induction n generalizing d rest with
  | zero =>
    obtain ⟨d, rfl⟩ := Nat.exists_eq_add_one.2 h
    rfl
  | succ n ih =>
    obtain ⟨d, rfl⟩ := Nat.exists_eq_add_one.2 (Nat.zero_lt_of_lt h)
    have hclose : List.replicate (n + 1 + 1) ']' ++ rest = List.replicate (n + 1) ']' ++ ']' :: rest := by
      rw [List.replicate_succ', List.append_assoc, List.singleton_append]
    generalize htail : List.replicate (n + 1) ']' ++ ']' :: rest = tail at hclose
    have hinner : value d ('[' :: (List.replicate n '[' ++ tail)) = .ok (nested n, ']' :: rest) :=
      htail ▸ ih (Nat.lt_of_succ_lt_succ h) (']' :: rest)
    have hlist : value (d + 1) (List.replicate (n + 1 + 1) '[' ++ tail) =
        listRest (value d) ('[' :: (List.replicate n '[' ++ tail)) := rfl
    rw [hclose, hlist, listRest_bracket, items, hinner]
    rfl

/-- **Lists inside one another are too deep** where fewer may be open. -/
theorem value_brackets_of_lt {n d : ℕ} (h : d < n) (cs : List Char) :
    value d (List.replicate n '[' ++ cs) = .error (.tooDeep .list) := by
  obtain ⟨n, rfl⟩ := Nat.exists_eq_add_one.2 (Nat.zero_lt_of_lt h)
  induction d generalizing n with
  | zero => rfl
  | succ d ih =>
    obtain ⟨n, rfl⟩ := Nat.exists_eq_add_one.2 (Nat.zero_lt_of_lt (Nat.lt_of_succ_lt_succ h))
    have hlist : value (d + 1) (List.replicate (n + 1 + 1) '[' ++ cs) =
        listRest (value d) ('[' :: (List.replicate n '[' ++ cs)) := rfl
    have hinner : value d ('[' :: (List.replicate n '[' ++ cs)) = .error (.tooDeep .list) :=
      ih n (Nat.lt_of_succ_lt_succ h)
    rw [hlist, listRest_bracket, items, hinner]

/-! ### Lists inside one another at the end of an object -/

variable {value : List Char → Reading Json} {key : String} {seen : List (String × Json)}
  {after : List Char} {v : Json} {rest : List Char}

/-- In front of a key there is nothing to skip, and no closing bracket. -/
theorem objectRest_key (cs : List Char) : objectRest value (writeText key ++ cs) =
    fields value ((writeText key ++ cs).length + 1) [] (writeText key ++ cs) := by
  unfold objectRest
  rw [skipSpace_writeText, writeText_append]
  rfl

theorem skipSpace_colon (cs : List Char) : skipSpace (':' :: cs) = ':' :: cs := rfl

/-- The last entry of an object is read. -/
theorem fields_last (h : value (skipSpace after) = .ok (v, '\x7d' :: rest)) (fuel : ℕ) :
    fields value (fuel + 1) seen (writeText key ++ ':' :: after) = .ok (obj (insert key v seen), rest) := by
  rw [writeText_append, fields]
  simp only [textRest_text, skipSpace_colon, h]
  rfl

theorem fields_comma (h : value (skipSpace after) = .ok (v, ',' :: rest)) (fuel : ℕ) :
    fields value (fuel + 1) seen (writeText key ++ ':' :: after) =
      fields value fuel (insert key v seen) (skipSpace rest) := by
  rw [writeText_append, fields]
  simp only [textRest_text, skipSpace_colon, h]
  rfl

theorem fields_error {f : Failure} (h : value (skipSpace after) = .error f) (fuel : ℕ) :
    fields value (fuel + 1) seen (writeText key ++ ':' :: after) = .error f := by
  rw [writeText_append, fields]
  simp only [textRest_text, skipSpace_colon, h]

end ErCanvas.Json
