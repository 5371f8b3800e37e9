import ErCanvas.Proofs.Json.RoundTrip
import ErCanvas.Proofs.Schema.Stored

/-! # Readable schemas

A schema whose names and types are readable is stored as a readable document. The document opens up
to six lists and objects around a name: the schema, its tables, a table, its columns, a column and its
reference. Conversely, the names of a schema that is read from a readable document are as readable as
its stored form needs them.

* `Schema.Legible`: every name of the schema is readable in its place.
* `readable_schema`, `legible_schema`: into a document and back. -/

namespace ErCanvas

open Json (Readable)

/-! ### Names in their places -/

/-- The names of the column are readable in their places; `d` lists and objects may be opened in those
of its reference. -/
structure Column.Legible (d : ℕ) (c : Column Json) : Prop where
  name : Readable (d + 1) c.name
  type : Readable (d + 1) c.type
  references : ∀ r ∈ c.references, Readable d r.table ∧ Readable d r.column

structure Relationship.Legible (d : ℕ) (r : Relationship Json) : Prop where
  fromTable : Readable d r.fromTable
  fromColumn : Readable d r.fromColumn
  toTable : Readable d r.toTable
  toColumn : Readable d r.toColumn

/-- Every name of the schema, those of its tables apart, is readable in its place. -/
structure Schema.Legible (d : ℕ) (s : Schema Json) : Prop where
  columns : ∀ t ∈ s.tables, ∀ c ∈ t.columns, c.Legible d
  relationships : ∀ r ∈ s.relationships, r.Legible (d + 3)

/-- Texts are readable in every place. -/
theorem Schema.legible_stored (d : ℕ) (s : Schema String) : s.stored.Legible d := by
  constructor
  · simp only [stored, map, Table.map, List.forall_mem_map]
    intro t _ c _
    refine ⟨.str _ _, .str _ _, fun r hr => ?_⟩
    obtain ⟨r', _, rfl⟩ := Option.map_eq_some_iff.1 hr
    exact ⟨.str _ _, .str _ _⟩
  · simp only [stored, map, List.forall_mem_map]
    exact fun r _ => ⟨.str _ _, .str _ _, .str _ _, .str _ _⟩

/-! ### Stored forms -/

section

variable {d : ℕ}

theorem readable_column {c : Column Json} (h : c.Legible d) : Readable (d + 2) c.toJson := by
  have hn := h.name
  have ht := h.type
  have hr := h.references
  rcases c with ⟨name, type, p, f, n, _ | r⟩
  · refine .obj (by simp) ?_
    simpa using ⟨hn, ht⟩
  · have hr : Readable (d + 1) r.toJson := .obj (by simp) (by simpa using hr r rfl)
    refine .obj (by simp) ?_
    simpa using ⟨hn, ht, hr⟩

theorem readable_table {t : Table Json} (h : ∀ c ∈ t.columns, c.Legible d) :
    Readable (d + 4) t.toJson := by
  have hc : Readable (d + 3) (.arr (t.columns.map Column.toJson)) := by
    refine .arr ?_
    rw [List.forall_mem_map]
    exact fun c hc => readable_column (h c hc)
  refine .obj (by simp) ?_
  simp [hc]

theorem readable_relationship {r : Relationship Json} (h : r.Legible d) :
    Readable (d + 1) r.toJson := by
  refine .obj (by simp) ?_
  simpa using ⟨h.fromTable, h.fromColumn, h.toTable, h.toColumn⟩

/-- **The stored form of a schema with readable names is readable.** -/
theorem readable_schema {s : Schema Json} (h : s.Legible d) : Readable (d + 6) s.toJson := by
  have ht : Readable (d + 5) (.arr (s.tables.map Table.toJson)) := by
    refine .arr ?_
    rw [List.forall_mem_map]
    exact fun t ht => readable_table (h.columns t ht)
  have hr : Readable (d + 5) (.arr (s.relationships.map Relationship.toJson)) := by
    refine .arr ?_
    rw [List.forall_mem_map]
    exact fun r hr => readable_relationship (h.relationships r hr)
  refine .obj (by simp) ?_
  simp [ht, hr]

end

/-! ### Parts of readable values -/

namespace Json

variable {d : ℕ} {v w : Json} {key : String}

theorem Readable.find? {es : List (String × Json)} (h : Readable (d + 1) (.obj es))
    (hw : Json.find? key es = some w) : Readable d w := by
  cases h with
  | obj _ h => exact h _ (mem_of_find? hw)

theorem Readable.entry (h : Readable (d + 1) v) (hw : v.entry key = .ok w) : Readable d w := by
  unfold Json.entry at hw
  split at hw
  · split at hw
    · cases hw; exact h.find? ‹_›
    · cases hw
  · cases hw

theorem Readable.entryD {default : Json} (h : Readable (d + 1) v) (hd : Readable d default)
    (hw : v.entryD key default = .ok w) : Readable d w := by
  rcases Json.entryD_eq_ok hw with hw | ⟨rfl, -⟩
  · exact h.entry hw
  · exact hd

theorem Readable.members {ms : List Json} (h : Readable (d + 1) v) (hm : v.members = .ok ms) :
    ∀ m ∈ ms, Readable d m := by
  cases h with
  | null => cases hm
  | bool => cases hm
  | num => cases hm
  | str _ s =>
    cases hm
    exact List.forall_mem_map.2 fun c _ => .str d _
  | arr h => cases hm; exact h
  | obj hk h =>
    cases hm
    exact List.forall_mem_map.2 fun e _ => .str d e.1

/-- What the members of a readable value are read as has any property that comes from being readable. -/
theorem Readable.mapMembers {α : Type} {P : α → Prop} {f : Json → Outcome α} {as : List α}
    (h : Readable (d + 1) v) (hf : ∀ m a, Readable d m → f m = .ok a → P a)
    (ha : Json.mapMembers f v = .ok as) : ∀ a ∈ as, P a := by
  intro a hmem
  obtain ⟨_, hm, m, hms, hma⟩ := Json.exists_of_mapMembers ha hmem
  exact hf m a (h.members hm m hms) hma

end Json

/-! ### Schemas that are read -/

section

variable {d : ℕ} {v : Json}

theorem legible_reference {r : Reference Json} (h : Readable (d + 1) v)
    (hr : Reference.ofJson? v = .ok (some r)) : Readable d r.table ∧ Readable d r.column := by
  unfold Reference.ofJson? at hr
  split at hr
  · obtain ⟨table, ht, hr⟩ := Outcome.bind_eq_ok.1 hr
    obtain ⟨column, hc, hr⟩ := Outcome.bind_eq_ok.1 hr
    cases hr
    exact ⟨h.entry ht, h.entry hc⟩
  · cases hr

theorem legible_column {c : Column Json} (h : Readable (d + 2) v) (hc : Column.ofJson v = .ok c) :
    c.Legible d := by
  unfold Column.ofJson at hc
  obtain ⟨w, hw, hc⟩ := Outcome.bind_eq_ok.1 hc
  obtain ⟨references, href, hc⟩ := Outcome.bind_eq_ok.1 hc
  obtain ⟨name, hname, hc⟩ := Outcome.bind_eq_ok.1 hc
  obtain ⟨type, htype, hc⟩ := Outcome.bind_eq_ok.1 hc
  obtain ⟨_, _, hc⟩ := Outcome.bind_eq_ok.1 hc
  obtain ⟨_, _, hc⟩ := Outcome.bind_eq_ok.1 hc
  obtain ⟨_, _, hc⟩ := Outcome.bind_eq_ok.1 hc
  cases hc
  refine ⟨h.entry hname, h.entryD (.str _ _) htype, fun r hr => ?_⟩
  obtain rfl : references = some r := hr
  exact legible_reference (h.entryD (.null _) hw) href

theorem legible_table {t : Table Json} (h : Readable (d + 4) v) (ht : Table.ofJson v = .ok t) :
    ∀ c ∈ t.columns, c.Legible d := by
  unfold Table.ofJson at ht
  obtain ⟨_, _, ht⟩ := Outcome.bind_eq_ok.1 ht
  obtain ⟨w, hw, ht⟩ := Outcome.bind_eq_ok.1 ht
  obtain ⟨columns, hc, ht⟩ := Outcome.bind_eq_ok.1 ht
  obtain ⟨_, _, ht⟩ := Outcome.bind_eq_ok.1 ht
  cases ht
  exact (h.entryD (.arr (by simp)) hw).mapMembers (fun _ _ => legible_column) hc

theorem legible_relationship {r : Relationship Json} (h : Readable (d + 1) v)
    (hr : Relationship.ofJson v = .ok r) : r.Legible d := by
  unfold Relationship.ofJson at hr
  obtain ⟨_, h1, hr⟩ := Outcome.bind_eq_ok.1 hr
  obtain ⟨_, h2, hr⟩ := Outcome.bind_eq_ok.1 hr
  obtain ⟨_, h3, hr⟩ := Outcome.bind_eq_ok.1 hr
  obtain ⟨_, h4, hr⟩ := Outcome.bind_eq_ok.1 hr
  cases hr
  exact ⟨h.entry h1, h.entry h2, h.entry h3, h.entry h4⟩

/-- **The names of a schema that is read from a readable document are readable.** -/
theorem legible_schema {s : Schema Json} (h : Readable (d + 6) v) (hs : Schema.ofJson v = .ok s) :
    s.Legible d := by
  unfold Schema.ofJson at hs
  obtain ⟨_, h1, hs⟩ := Outcome.bind_eq_ok.1 hs
  obtain ⟨tables, ht, hs⟩ := Outcome.bind_eq_ok.1 hs
  obtain ⟨_, h2, hs⟩ := Outcome.bind_eq_ok.1 hs
  obtain ⟨relationships, hr, hs⟩ := Outcome.bind_eq_ok.1 hs
  cases hs
  exact ⟨(h.entry h1).mapMembers (fun _ _ => legible_table) ht,
    (h.entryD (.arr (by simp)) h2).mapMembers (fun _ _ => legible_relationship) hr⟩

end

end ErCanvas
