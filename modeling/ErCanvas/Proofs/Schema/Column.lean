import ErCanvas.Schema.Basic

/-! # Normal columns

A column is normal when its flags agree with each other: with references it is a foreign key, and as
part of the primary key it is not nullable. A new column is normal, and it stays so when it is marked.
A normal column is determined by its data, in the sense that a new column with these data is the same
column. -/

namespace ErCanvas

variable {ν μ : Type}

/-- The flags of the column agree with each other. -/
structure Column.Normal (c : Column ν) : Prop where
  foreignKey : c.references.isSome → c.isForeignKey
  notNullable : c.isPrimaryKey → c.isNullable = false

namespace Column

theorem normal_make (name type : ν) (p f n : Bool) (r : Option (Reference ν)) :
    (make name type p f n r).Normal := by
  constructor
  · intro hr; simp only [make] at hr ⊢; simp [hr]
  · intro hp; simp only [make] at hp ⊢; simp [hp]

/-- A normal column is made again from its data. -/
theorem Normal.make_eq {c : Column ν} (h : c.Normal) :
    make c.name c.type c.isPrimaryKey c.isForeignKey c.isNullable c.references = c := by
  have hf : (c.isForeignKey || c.references.isSome) = c.isForeignKey := by
    cases hr : c.references.isSome with
    | false => simp
    | true => simp [h.foreignKey hr]
  have hn : (c.isNullable && !c.isPrimaryKey) = c.isNullable := by
    cases hp : c.isPrimaryKey with
    | false => simp
    | true => simp [h.notNullable hp]
  rw [make, hf, hn]

theorem Normal.markPrimaryKey {c : Column ν} (h : c.Normal) : c.markPrimaryKey.Normal :=
  ⟨h.foreignKey, fun _ => rfl⟩

theorem Normal.markForeignKey {c : Column ν} (h : c.Normal) (table column : ν) :
    (c.markForeignKey table column).Normal :=
  ⟨fun _ => rfl, h.notNullable⟩

/-- Whether a column is normal does not depend on what its names are. -/
theorem normal_map {f : ν → μ} {c : Column ν} : (c.map f).Normal ↔ c.Normal := by
  constructor
  · intro h; exact ⟨fun hr => h.foreignKey (by simpa [map] using hr), h.notNullable⟩
  · intro h; exact ⟨fun hr => h.foreignKey (by simpa [map] using hr), h.notNullable⟩

end Column

/-- All columns of the schema are normal. -/
def Schema.Normal (s : Schema ν) : Prop := ∀ t ∈ s.tables, ∀ c ∈ t.columns, c.Normal

theorem Schema.normal_map {f : ν → μ} {s : Schema ν} : (s.map f).Normal ↔ s.Normal := by
  simp only [Schema.Normal, Schema.map, Table.map, List.forall_mem_map, Column.normal_map]

end ErCanvas
