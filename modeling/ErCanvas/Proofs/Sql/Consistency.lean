import ErCanvas.Proofs.Sql.Columns
import ErCanvas.Proofs.Sql.Script

/-! # Consistent schemas

A column that references another stands for a relationship of its table. A clause that gives a column
its reference, or another one, adds that relationship, and none is ever taken away; so in the schema of
any script every reference has its relationship, and every relationship comes from a table of the schema.

* `Column.LinkedIn`: the reference of a column has a relationship.
* `Draft.Grows`: what any clauses do to a table under construction.
* `Schema.Consistent`: how tables, columns and relationships fit together. -/

namespace ErCanvas

/-- If the column references another, one of the relationships says so. Its name may be written in
another case there. -/
def Column.LinkedIn (table : String) (rs : List (Relationship String)) (c : Column String) : Prop :=
  ∀ ref ∈ c.references, ∃ r ∈ rs, r.fromTable = table ∧ sameName r.fromColumn c.name ∧
    r.toTable = ref.table ∧ r.toColumn = ref.column

/-- The tables, columns and relationships of the schema fit together. -/
structure Schema.Consistent (s : Schema String) : Prop where
  notNullable : ∀ t ∈ s.tables, ∀ c ∈ t.columns, c.isPrimaryKey → c.isNullable = false
  foreignKey : ∀ t ∈ s.tables, ∀ c ∈ t.columns, c.isForeignKey ↔ c.references.isSome
  id : ∀ t ∈ s.tables, t.id = Text.lower t.name
  source : ∀ r ∈ s.relationships, ∃ t ∈ s.tables, t.name = r.fromTable
  linked : ∀ t ∈ s.tables, ∀ c ∈ t.columns, c.LinkedIn t.name s.relationships

/-! ### Columns -/

theorem sameName_refl (a : String) : sameName a a = true := by rw [sameName, beq_self_eq_true]

theorem sameName_symm {a b : String} (h : sameName a b = true) : sameName b a = true := by
  rw [sameName, beq_iff_eq] at h ⊢
  exact h.symm

/-- A column that is a foreign key says what it references. -/
theorem Column.kept_foreignKey : Kept fun c => c.isForeignKey ↔ c.references.isSome where
  make name type p n r := by simp [make]
  markPrimaryKey _ h := h
  markForeignKey table column c _ := by simp [markForeignKey]

theorem Column.LinkedIn.mono {table : String} {rs rs' : List (Relationship String)}
    {c : Column String} (h : c.LinkedIn table rs) (hrs : rs ⊆ rs') : c.LinkedIn table rs' := by
  intro ref href
  obtain ⟨r, hr, h⟩ := h ref href
  exact ⟨r, hrs hr, h⟩

/-- Only the first column of the name is changed. -/
theorem mem_markFirst {name : String} {change : Column String → Column String}
    {cs : List (Column String)} {c : Column String} (h : c ∈ markFirst name change cs) :
    c ∈ cs ∨ ∃ c' ∈ cs, sameName c'.name name = true ∧ c = change c' := by
  induction cs with
  | nil => cases h
  | cons d cs ih =>
    rw [markFirst] at h
    split at h
    · rename_i hd
      rcases List.mem_cons.1 h with rfl | h
      · exact .inr ⟨d, .head _, hd, rfl⟩
      · exact .inl (.tail _ h)
    · rcases List.mem_cons.1 h with rfl | h
      · exact .inl (.head _)
      · rcases ih h with h | ⟨c', hc', h⟩
        · exact .inl (.tail _ h)
        · exact .inr ⟨c', .tail _ hc', h⟩

namespace Sql

/-! ### Clauses -/

namespace Draft

/-- Every reference of the table has its relationship. -/
def Linked (d : Draft) : Prop := d.Has (Column.LinkedIn d.table.name d.relationships)

/-- The draft has become the other one: its table keeps its name, its relationships stay and more of
the table's own come behind them, and references do not lose their relationships. -/
structure Grows (d d' : Draft) : Prop where
  name : d'.table.name = d.table.name
  relationships : ∃ rs, d'.relationships = d.relationships ++ rs ∧ ∀ r ∈ rs, r.fromTable = d.table.name
  linked : d.Linked → d'.Linked

variable {d d' d'' : Draft}

theorem Grows.refl (d : Draft) : d.Grows d := ⟨rfl, ⟨[], by simp⟩, id⟩

theorem Grows.trans (h : d.Grows d') (h' : d'.Grows d'') : d.Grows d'' := by
  obtain ⟨rs, hrs, hfrom⟩ := h.relationships
  obtain ⟨rs', hrs', hfrom'⟩ := h'.relationships
  refine ⟨h'.name.trans h.name, ⟨rs ++ rs', by rw [hrs', hrs, List.append_assoc], ?_⟩,
    fun hd => h'.linked (h.linked hd)⟩
  rintro r hr
  rcases List.mem_append.1 hr with hr | hr
  · exact hfrom r hr
  · exact (hfrom' r hr).trans h.name

theorem grows_note (d : Draft) (n : Note) : d.Grows (d.note n) := ⟨rfl, ⟨[], by simp [note]⟩, id⟩

theorem grows_markPrimaryKey (d : Draft) (name : String) :
    d.Grows (d.mark name Column.markPrimaryKey) := by
  have hmark : ∀ c : Column String, c.LinkedIn d.table.name d.relationships →
      c.markPrimaryKey.LinkedIn d.table.name d.relationships := fun _ hc => hc
  exact ⟨rfl, ⟨[], by simp [mark]⟩, fun h => h.mark hmark name⟩

/-- A column that is related gets its reference together with the relationship. -/
theorem grows_relate (d : Draft) (table : String) (pair : String × String) :
    d.Grows (relate table d pair) := by
  refine ⟨rfl, ⟨_, rfl, ?_⟩, fun h c hc => ?_⟩
  · intro r hr
    rw [List.mem_singleton.1 hr]
    rfl
  · have hold : d.relationships ⊆ (relate table d pair).relationships :=
      List.subset_append_left _ _
    rcases mem_markFirst hc with hc | ⟨c', -, hname, rfl⟩
    · exact (h c hc).mono hold
    · rintro ref ⟨⟩
      exact ⟨_, List.mem_append_right _ (.head _), rfl, sameName_symm hname, rfl, rfl⟩

theorem grows_applyPrimaryKey (d : Draft) (cs : List Char) : d.Grows (d.applyPrimaryKey cs) :=
  List.foldlRecOn _ _ (Grows.refl d) fun d' h name _ => h.trans (grows_markPrimaryKey d' name)

theorem grows_applyForeignKey (d : Draft) (cs : List Char) : d.Grows (d.applyForeignKey cs) := by
  unfold applyForeignKey
  split
  · exact Grows.refl d
  · rename_i k _
    exact List.foldlRecOn _ _ (Grows.refl d) fun d' h pair _ => h.trans (grows_relate d' k.table pair)

theorem grows_applyColumn (d : Draft) (cs : List Char) : d.Grows (d.applyColumn cs) := by
  unfold applyColumn
  split
  · exact grows_note d _
  · rename_i c _
    refine ⟨rfl, ⟨_, rfl, ?_⟩, fun h c' hc' => ?_⟩
    · intro r hr
      obtain ⟨ref, -, rfl⟩ := Option.map_eq_some_iff.1 (Option.mem_toList.1 hr)
      rfl
    · rcases List.mem_append.1 hc' with hc' | hc'
      · exact (h c' hc').mono (List.subset_append_left _ _)
      · rw [List.mem_singleton.1 hc']
        intro ref href
        have hr : (⟨d.table.name, c.name, ref.table, ref.column⟩ : Relationship String) ∈
            (c.relationship? d.table.name).toList := by
          rw [Option.mem_toList, Column.relationship?, href]; rfl
        exact ⟨_, List.mem_append_right _ hr, rfl, sameName_refl _, rfl, rfl⟩

/-- **A clause** of any kind lets the draft grow. -/
theorem grows_apply (d : Draft) (cs : List Char) : d.Grows (d.apply cs) := by
  unfold apply
  split
  · exact grows_applyPrimaryKey d cs
  · exact grows_applyForeignKey d cs
  · exact grows_applyColumn d cs
  · exact grows_note d _

theorem grows_foldl_apply (d : Draft) (cs : List (List Char)) : d.Grows (cs.foldl apply d) :=
  List.foldlRecOn _ _ (Grows.refl d) fun d' h c _ => h.trans (grows_apply d' c)

end Draft

/-! ### Statements -/

/-- Relationships come from tables, and references have their relationships. -/
structure Progress.Consistent (p : Progress) : Prop where
  source : ∀ r ∈ p.relationships, ∃ t ∈ p.tables, t.name = r.fromTable
  linked : ∀ t ∈ p.tables, ∀ c ∈ t.columns, c.LinkedIn t.name p.relationships

/-- The draft of a statement, with what comes before it. -/
theorem draftOf_grows (p : Progress) (name body : List Char) :
    Draft.Grows ⟨⟨String.ofList name, []⟩, p.relationships, p.notes⟩ (draftOf p name body) :=
  Draft.grows_foldl_apply _ _

theorem Progress.Consistent.add {p : Progress} (h : p.Consistent) (s : Statement) :
    (p.add s).Consistent := by
  cases s with
  | unclosed name => exact ⟨h.source, h.linked⟩
  | closed name body =>
    have hd := draftOf_grows p name body
    obtain ⟨rs, hrs, hfrom⟩ := hd.relationships
    have hlinked : (draftOf p name body).Linked := hd.linked (by intro c hc; cases hc)
    constructor
    · intro r hr
      have hr : r ∈ p.relationships ++ rs := hrs ▸ hr
      rcases List.mem_append.1 hr with hr | hr
      · obtain ⟨t, ht, hname⟩ := h.source r hr
        exact ⟨t, List.mem_append_left _ ht, hname⟩
      · exact ⟨_, List.mem_append_right _ (.head _), hd.name.trans (hfrom r hr).symm⟩
    · intro t ht c hc
      rcases List.mem_append.1 ht with ht | ht
      · refine (h.linked t ht c hc).mono ?_
        show p.relationships ⊆ (draftOf p name body).relationships
        rw [hrs]
        exact List.subset_append_left _ _
      · rw [List.mem_singleton.1 ht] at hc ⊢
        exact hlinked c hc

theorem progressOf_consistent (cs : List Char) : (progressOf cs).Consistent := by
  have h0 : Progress.start.Consistent := ⟨by rintro r ⟨⟩, by rintro t ⟨⟩⟩
  exact List.foldlRecOn _ _ h0 fun _ hp s _ => hp.add s

/-- **The schema of every script is consistent.** -/
theorem schemaOf_consistent (script : String) : (schemaOf script).Consistent := by
  have hp := progressOf_consistent script.toList
  have hnormal := progressOf_columns Column.kept_normal script.toList
  have hforeign := progressOf_columns Column.kept_foreignKey script.toList
  rw [schemaOf_eq]
  exact {
    notNullable := fun t ht c hc => (hnormal t ht c hc).notNullable
    foreignKey := hforeign
    id := fun _ _ => rfl
    source := hp.source
    linked := hp.linked }

end Sql

end ErCanvas
