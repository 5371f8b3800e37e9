import ErCanvas.Proofs.Outcome
import ErCanvas.Proofs.Schema.Column
import ErCanvas.Schema.Stored

/-! # Stored schemas read back

Whatever is read from a document has normal columns, and a schema of normal columns is read from its
stored form as itself. -/

namespace ErCanvas

variable {α : Type}

/-! ### Reading lists -/

theorem Json.mapMembers_arr (f : Json → Outcome α) (items : List Json) :
    Json.mapMembers f (.arr items) = items.mapM f := rfl

/-- What is stored item by item is read item by item. -/
theorem Json.mapMembers_stored {f : Json → Outcome α} {store : α → Json} {xs : List α}
    (h : ∀ x ∈ xs, f (store x) = .ok x) : Json.mapMembers f (.arr (xs.map store)) = .ok xs := by
  rw [mapMembers_arr]
  induction xs with
  | nil => rfl
  | cons x xs ih =>
    rw [List.map_cons, List.mapM_cons, h x (.head _), Outcome.ok_bind,
      ih fun y hy => h y (.tail _ hy)]
    rfl

/-- All that is read from the members of a value is read from one of them. -/
theorem Json.exists_of_mapMembers {f : Json → Outcome α} {v : Json} {xs : List α}
    (h : Json.mapMembers f v = .ok xs) {x : α} (hx : x ∈ xs) :
    ∃ members, v.members = .ok members ∧ ∃ m ∈ members, f m = .ok x := by
  obtain ⟨members, hm, h⟩ := Outcome.bind_eq_ok.1 h
  exact ⟨members, hm, Outcome.exists_of_mapM h hx⟩

/-- What every member is read as satisfies, all that is read satisfies. -/
theorem Json.mapMembers_forall {P : α → Prop} {f : Json → Outcome α}
    (hf : ∀ v a, f v = .ok a → P a) {v : Json} {xs : List α} (h : Json.mapMembers f v = .ok xs) :
    ∀ x ∈ xs, P x := by
  intro x hx
  obtain ⟨_, -, m, -, hm⟩ := Json.exists_of_mapMembers h hx
  exact hf m x hm

/-- An entry that may be left out is there, or is the default. -/
theorem Json.entryD_eq_ok {key : String} {v default w : Json} (h : v.entryD key default = .ok w) :
    v.entry key = .ok w ∨ w = default ∧ ∃ f, v.entry key = .error f := by
  unfold entryD entry? at h
  split at h
  · rename_i entries
    cases h
    cases hf : find? key entries with
    | none => exact .inr ⟨rfl, _, by rw [entry, hf]⟩
    | some u => exact .inl (by rw [entry, hf]; rfl)
  · cases h

/-! ### Schemas that are read -/

theorem Column.ofJson_normal {v : Json} {c : Column Json} (h : ofJson v = .ok c) : c.Normal := by
  unfold ofJson at h
  obtain ⟨_, _, h⟩ := Outcome.bind_eq_ok.1 h
  obtain ⟨references, _, h⟩ := Outcome.bind_eq_ok.1 h
  obtain ⟨name, _, h⟩ := Outcome.bind_eq_ok.1 h
  obtain ⟨type, _, h⟩ := Outcome.bind_eq_ok.1 h
  obtain ⟨isPrimaryKey, _, h⟩ := Outcome.bind_eq_ok.1 h
  obtain ⟨isForeignKey, _, h⟩ := Outcome.bind_eq_ok.1 h
  obtain ⟨isNullable, _, h⟩ := Outcome.bind_eq_ok.1 h
  cases h
  exact normal_make ..

theorem Table.ofJson_normal {v : Json} {t : Table Json} (h : ofJson v = .ok t) :
    ∀ c ∈ t.columns, c.Normal := by
  unfold ofJson at h
  obtain ⟨_, _, h⟩ := Outcome.bind_eq_ok.1 h
  obtain ⟨_, _, h⟩ := Outcome.bind_eq_ok.1 h
  obtain ⟨columns, hc, h⟩ := Outcome.bind_eq_ok.1 h
  obtain ⟨name, _, h⟩ := Outcome.bind_eq_ok.1 h
  cases h
  exact Json.mapMembers_forall (fun _ _ => Column.ofJson_normal) hc

/-- All columns of a schema that is read from a document are normal. -/
theorem Schema.ofJson_normal {v : Json} {s : Schema Json} (h : ofJson v = .ok s) : s.Normal := by
  unfold ofJson at h
  obtain ⟨_, _, h⟩ := Outcome.bind_eq_ok.1 h
  obtain ⟨tables, ht, h⟩ := Outcome.bind_eq_ok.1 h
  obtain ⟨_, _, h⟩ := Outcome.bind_eq_ok.1 h
  obtain ⟨relationships, _, h⟩ := Outcome.bind_eq_ok.1 h
  cases h
  exact Json.mapMembers_forall (fun _ _ => Table.ofJson_normal) ht

/-! ### Parts of documents -/

/-- The value has a list at the key, and the form stands in it. -/
def Json.Lists (key : String) (v form : Json) : Prop :=
  ∃ list members, v.entry key = .ok list ∧ list.members = .ok members ∧ form ∈ members

/-- Each column of a table is read from a form of its own. -/
theorem Table.exists_form {v : Json} {t : Table Json} (h : ofJson v = .ok t) {c : Column Json}
    (hc : c ∈ t.columns) : ∃ form, v.Lists "columns" form ∧ Column.ofJson form = .ok c := by
  unfold ofJson at h
  obtain ⟨_, _, h⟩ := Outcome.bind_eq_ok.1 h
  obtain ⟨list, hlist, h⟩ := Outcome.bind_eq_ok.1 h
  obtain ⟨columns, hcolumns, h⟩ := Outcome.bind_eq_ok.1 h
  obtain ⟨name, _, h⟩ := Outcome.bind_eq_ok.1 h
  cases h
  obtain ⟨members, hm, form, hform, hread⟩ := Json.exists_of_mapMembers hcolumns hc
  rcases Json.entryD_eq_ok hlist with hlist | ⟨rfl, -⟩
  · exact ⟨form, ⟨list, members, hlist, hm, hform⟩, hread⟩
  · cases hm; cases hform

/-- Each table of a schema is read from a form of its own. -/
theorem Schema.exists_form {v : Json} {s : Schema Json} (h : ofJson v = .ok s) {t : Table Json}
    (ht : t ∈ s.tables) : ∃ form, v.Lists "tables" form ∧ Table.ofJson form = .ok t := by
  unfold ofJson at h
  obtain ⟨list, hlist, h⟩ := Outcome.bind_eq_ok.1 h
  obtain ⟨tables, htables, h⟩ := Outcome.bind_eq_ok.1 h
  obtain ⟨_, _, h⟩ := Outcome.bind_eq_ok.1 h
  obtain ⟨relationships, _, h⟩ := Outcome.bind_eq_ok.1 h
  cases h
  obtain ⟨members, hm, form, hform, hread⟩ := Json.exists_of_mapMembers htables ht
  exact ⟨form, ⟨list, members, hlist, hm, hform⟩, hread⟩

/-! ### Stored schemas -/

theorem Column.ofJson_toJson {c : Column Json} (h : c.Normal) : ofJson c.toJson = .ok c := by
  have hm : ofJson c.toJson =
      .ok (make c.name c.type c.isPrimaryKey c.isForeignKey c.isNullable c.references) := by
    rcases c with ⟨name, type, p, f, n, _ | r⟩ <;> rfl
  rw [hm, h.make_eq]

theorem Table.ofJson_toJson {t : Table Json} (h : ∀ c ∈ t.columns, c.Normal) :
    ofJson t.toJson = .ok t := by
  have hn : t.toJson.entry "name" = .ok (.str t.name) := rfl
  have hc : Json.entryD "columns" t.toJson (.arr []) = .ok (.arr (t.columns.map Column.toJson)) :=
    rfl
  have hm := Json.mapMembers_stored fun c hc => Column.ofJson_toJson (h c hc)
  rw [ofJson, hn, hc]
  simp only [Outcome.ok_bind, hm]
  rfl

theorem Relationship.ofJson_toJson (r : Relationship Json) : ofJson r.toJson = .ok r := rfl

/-- **A schema of normal columns is read from its stored form as itself.** -/
theorem Schema.ofJson_toJson {s : Schema Json} (h : s.Normal) : ofJson s.toJson = .ok s := by
  have ht : s.toJson.entry "tables" = .ok (.arr (s.tables.map Table.toJson)) := rfl
  have hr : Json.entryD "relationships" s.toJson (.arr []) =
      .ok (.arr (s.relationships.map Relationship.toJson)) := rfl
  have hmt := Json.mapMembers_stored fun t ht => Table.ofJson_toJson (h t ht)
  have hmr := Json.mapMembers_stored fun r (_ : r ∈ s.relationships) => r.ofJson_toJson
  rw [ofJson, ht, hr]
  simp only [Outcome.ok_bind, hmt, hmr]
  rfl

end ErCanvas
