import ErCanvas.Proofs.Json.Rearranged
import ErCanvas.Proofs.Schema.Stored

/-! # Stored schemas in any order

The stored form of a schema of texts is read as the schema, in whatever order the entries of its objects
come. The order of the tables and that of the columns are kept, since they stand in lists.

* `Schema.reads_stored`: what is read from a rearranged schema. -/

namespace ErCanvas

open Json (Fixed Reads Rearranged fixed_bool fixed_null fixed_str)

/-- What is stored item by item is read item by item. -/
theorem Json.reads_mapMembers {α : Type} {f : Json → Outcome α} {store : α → Json} {xs : List α}
    (h : ∀ x ∈ xs, Reads f (store x) x) : Reads (mapMembers f) (.arr (xs.map store)) xs := by
  intro w hw
  obtain ⟨ys, rfl, hys⟩ := hw.items
  rw [mapMembers_arr, Outcome.mapM_eq_ok]
  rw [List.forall₂_map_left_iff] at hys
  have hall := (List.forall₂_and_left xs ys).2 ⟨h, hys⟩
  exact .flip (hall.imp fun x y hxy => hxy.1 y hxy.2)

theorem Reference.reads_stored (r : Reference String) :
    Reads ofJson? (r.map Json.str).toJson (some (r.map Json.str)) := by
  intro w h
  have htruthy : w.isTruthy = true := h.isTruthy
  have htable : w.entry "table" = .ok (.str r.table) := (fixed_str _).entry h rfl
  have hcolumn : w.entry "column" = .ok (.str r.column) := (fixed_str _).entry h rfl
  simp only [ofJson?, htruthy, htable, hcolumn]
  rfl

theorem Column.reads_stored {c : Column String} (hc : c.Normal) :
    Reads ofJson (c.map Json.str).toJson (c.map Json.str) := by
  intro w h
  have hname : w.entry "name" = .ok (.str c.name) := (fixed_str _).entry h rfl
  have htype : w.entryD "type" (.str "text") = .ok (.str c.type) := (fixed_str _).entryD h rfl
  have hprimary : w.entryD "isPrimaryKey" (.bool false) = .ok (.bool c.isPrimaryKey) :=
    (fixed_bool _).entryD h rfl
  have hforeign : w.entryD "isForeignKey" (.bool false) = .ok (.bool c.isForeignKey) :=
    (fixed_bool _).entryD h rfl
  have hnullable : w.entryD "isNullable" (.bool true) = .ok (.bool c.isNullable) :=
    (fixed_bool _).entryD h rfl
  have hreferences : ∃ v, w.entryD "references" .null = .ok v ∧
      Reference.ofJson? v = .ok (c.references.map (·.map Json.str)) := by
    rcases c with ⟨name, type, p, f, n, _ | r⟩
    · exact ⟨.null, fixed_null.entryD h rfl, rfl⟩
    · obtain ⟨v, hv, hr⟩ : ∃ v, w.entryD "references" .null = .ok v ∧
          Rearranged (r.map Json.str).toJson v := h.entryD rfl
      exact ⟨v, hv, r.reads_stored v hr⟩
  obtain ⟨v, hv, hread⟩ := hreferences
  have hmake := (Column.normal_map (f := Json.str)).2 hc
  simp only [ofJson, hv, hread, hname, htype, hprimary, hforeign, hnullable, Outcome.ok_bind]
  exact congrArg _ hmake.make_eq

theorem Table.reads_stored {t : Table String} (ht : ∀ c ∈ t.columns, c.Normal) :
    Reads ofJson (t.map Json.str).toJson (t.map Json.str) := by
  intro w h
  have hname : w.entry "name" = .ok (.str t.name) := (fixed_str _).entry h rfl
  obtain ⟨v, hv, hr⟩ : ∃ v, w.entryD "columns" (.arr []) = .ok v ∧
      Rearranged (.arr ((t.map Json.str).columns.map Column.toJson)) v := h.entryD rfl
  have hcolumns : Json.mapMembers Column.ofJson v = .ok (t.map Json.str).columns := by
    refine Json.reads_mapMembers ?_ v hr
    simp only [Table.map, List.forall_mem_map]
    exact fun c hc => Column.reads_stored (ht c hc)
  simp only [ofJson, hname, hv, hcolumns, Outcome.ok_bind]
  rfl

theorem Relationship.reads_stored (r : Relationship String) :
    Reads ofJson (r.map Json.str).toJson (r.map Json.str) := by
  intro w h
  have h1 : w.entry "fromTable" = .ok (.str r.fromTable) := (fixed_str _).entry h rfl
  have h2 : w.entry "fromColumn" = .ok (.str r.fromColumn) := (fixed_str _).entry h rfl
  have h3 : w.entry "toTable" = .ok (.str r.toTable) := (fixed_str _).entry h rfl
  have h4 : w.entry "toColumn" = .ok (.str r.toColumn) := (fixed_str _).entry h rfl
  simp only [ofJson, h1, h2, h3, h4]
  rfl

/-- **A schema of texts is read from its stored form in any order.** -/
theorem Schema.reads_stored {s : Schema String} (hs : s.Normal) :
    Reads ofJson s.stored.toJson s.stored := by
  intro w h
  obtain ⟨v, hv, hr⟩ : ∃ v, w.entry "tables" = .ok v ∧
      Rearranged (.arr (s.stored.tables.map Table.toJson)) v := h.entry rfl
  obtain ⟨v', hv', hr'⟩ : ∃ v, w.entryD "relationships" (.arr []) = .ok v ∧
      Rearranged (.arr (s.stored.relationships.map Relationship.toJson)) v := h.entryD rfl
  have htables : Json.mapMembers Table.ofJson v = .ok s.stored.tables := by
    refine Json.reads_mapMembers ?_ v hr
    simp only [stored, map, List.forall_mem_map]
    exact fun t ht => Table.reads_stored (hs t ht)
  have hrelationships : Json.mapMembers Relationship.ofJson v' = .ok s.stored.relationships := by
    refine Json.reads_mapMembers ?_ v' hr'
    simp only [stored, map, List.forall_mem_map]
    exact fun r _ => r.reads_stored
  simp only [ofJson, hv, hv', htables, hrelationships, Outcome.ok_bind]
  rfl

end ErCanvas
