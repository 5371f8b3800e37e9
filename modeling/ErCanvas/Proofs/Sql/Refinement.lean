import ErCanvas.Proofs.Schema.Marked
import ErCanvas.Proofs.Sql.Consistency

/-! # Clauses refine tables

A clause only ever says more about a table: its columns keep their places, names and types, and what has
been said of them is not taken back; the definition of a column adds one behind them, and foreign keys add
relationships of the table behind those that are there.

* `Column.Refines`, `Draft.Refines`: a column, and a table under construction, of which more is said.
* `clauses_refine`: every clause, behind any others. -/

namespace ErCanvas

/-- The column has become the other one: it has kept its name and type, it is still all that it was, and
where it had references it has some. -/
structure Column.Refines (c c' : Column String) : Prop where
  name : c'.name = c.name
  type : c'.type = c.type
  primaryKey : c.isPrimaryKey → c'.isPrimaryKey
  foreignKey : c.isForeignKey → c'.isForeignKey
  notNullable : c.isNullable = false → c'.isNullable = false
  references : c.references.isSome → c'.references.isSome

namespace Column

theorem Refines.refl (c : Column String) : c.Refines c := ⟨rfl, rfl, id, id, id, id⟩

theorem Refines.trans {c c' c'' : Column String} (h : c.Refines c') (h' : c'.Refines c'') :
    c.Refines c'' where
  name := h'.name.trans h.name
  type := h'.type.trans h.type
  primaryKey hc := h'.primaryKey (h.primaryKey hc)
  foreignKey hc := h'.foreignKey (h.foreignKey hc)
  notNullable hc := h'.notNullable (h.notNullable hc)
  references hc := h'.references (h.references hc)

theorem refines_markPrimaryKey (c : Column String) : c.Refines c.markPrimaryKey :=
  ⟨rfl, rfl, fun _ => rfl, id, fun _ => rfl, id⟩

theorem refines_markForeignKey (table column : String) (c : Column String) :
    c.Refines (c.markForeignKey table column) :=
  ⟨rfl, rfl, id, fun _ => rfl, id, fun _ => rfl⟩

end Column

namespace Sql

/-- The draft has become the other one: its columns are in their places, refined, with at most `n` new ones
behind them, and its relationships are there, with only ones from its table behind them. -/
structure Draft.Refines (n : ℕ) (d d' : Draft) : Prop where
  name : d'.table.name = d.table.name
  columns : ∀ (i : ℕ) (c : Column String), d.table.columns[i]? = some c →
    ∃ c', d'.table.columns[i]? = some c' ∧ c.Refines c'
  length_le : d'.table.columns.length ≤ d.table.columns.length + n
  relationships : ∃ rs, d'.relationships = d.relationships ++ rs ∧ ∀ r ∈ rs, r.fromTable = d.table.name

/-- How many of the clauses define columns. -/
def definitionCount (cs : List (List Char)) : ℕ := cs.countP fun c => classify c = .column

namespace Draft

variable {d d' d'' : Draft} {m n : ℕ}

theorem Refines.refl (d : Draft) : d.Refines 0 d where
  name := rfl
  columns _ c hc := ⟨c, hc, .refl c⟩
  length_le := le_rfl
  relationships := ⟨[], by simp⟩

theorem Refines.trans (h : d.Refines m d') (h' : d'.Refines n d'') : d.Refines (m + n) d'' where
  name := h'.name.trans h.name
  columns i c hc := by
    obtain ⟨c', hc', hrefines⟩ := h.columns i c hc
    obtain ⟨c'', hc'', hrefines'⟩ := h'.columns i c' hc'
    exact ⟨c'', hc'', hrefines.trans hrefines'⟩
  length_le := by
    have hle := h.length_le
    have hle' := h'.length_le
    omega
  relationships := by
    obtain ⟨rs, hrs, hfrom⟩ := h.relationships
    obtain ⟨rs', hrs', hfrom'⟩ := h'.relationships
    refine ⟨rs ++ rs', by rw [hrs', hrs, List.append_assoc], fun r hr => ?_⟩
    rcases List.mem_append.1 hr with hr | hr
    · exact hfrom r hr
    · exact (hfrom' r hr).trans h.name

theorem Refines.mono (h : d.Refines m d') (hmn : m ≤ n) : d.Refines n d' :=
  { h with length_le := h.length_le.trans (Nat.add_le_add_left hmn _) }

/-! ### One clause -/

/-- A mark refines the draft, if it refines columns. -/
theorem refines_mark {change : Column String → Column String}
    (hchange : ∀ c : Column String, c.Refines (change c)) (d : Draft) (name : String) :
    d.Refines 0 (d.mark name change) where
  name := rfl
  columns i c hc := by
    have hmark : (d.mark name change).table.columns = _ := markFirst_eq_mapIdx name change d.table.columns
    rw [hmark, List.getElem?_mapIdx, hc]
    refine ⟨_, rfl, ?_⟩
    split
    · exact hchange c
    · exact .refl c
  length_le := by
    have hmark : (d.mark name change).table.columns = _ := markFirst_eq_mapIdx name change d.table.columns
    rw [hmark, List.length_mapIdx]
    exact Nat.le_add_right _ _
  relationships := ⟨[], by simp [mark]⟩

theorem refines_relate (d : Draft) (table : String) (pair : String × String) :
    d.Refines 0 (relate table d pair) :=
  { d.refines_mark (Column.refines_markForeignKey table pair.2) pair.1 with
    relationships := (grows_relate d table pair).relationships }

theorem refines_applyPrimaryKey (d : Draft) (cs : List Char) : d.Refines 0 (d.applyPrimaryKey cs) :=
  List.foldlRecOn _ _ (Refines.refl d) fun d' h name _ =>
    h.trans (d'.refines_mark Column.refines_markPrimaryKey name)

theorem refines_applyForeignKey (d : Draft) (cs : List Char) : d.Refines 0 (d.applyForeignKey cs) := by
  unfold applyForeignKey
  split
  · exact .refl d
  · rename_i k _
    exact List.foldlRecOn _ _ (Refines.refl d) fun d' h pair _ => h.trans (d'.refines_relate k.table pair)

theorem refines_note (d : Draft) (n : Note) : d.Refines 0 (d.note n) :=
  { Refines.refl d with }

theorem refines_applyColumn (d : Draft) (cs : List Char) : d.Refines 1 (d.applyColumn cs) := by
  have hgrows := grows_applyColumn d cs
  unfold applyColumn at hgrows ⊢
  split
  · exact (d.refines_note _).mono (Nat.zero_le 1)
  · rename_i c hc
    rw [hc] at hgrows
    exact {
      name := rfl
      columns := fun i c' hc' => by
        have hi := (List.getElem?_eq_some_iff.1 hc').1
        exact ⟨c', (List.getElem?_append_left hi).trans hc', .refl c'⟩
      length_le := (List.length_append ..).le
      relationships := hgrows.relationships }

/-- **One clause** refines the draft; it adds no column unless it defines one. -/
theorem refines_apply (d : Draft) (cs : List Char) :
    d.Refines (if classify cs = .column then 1 else 0) (d.apply cs) := by
  unfold apply
  cases classify cs with
  | primaryKey => exact d.refines_applyPrimaryKey cs
  | foreignKey => exact d.refines_applyForeignKey cs
  | column => exact d.refines_applyColumn cs
  | namedConstraint => exact d.refines_note _
  | otherConstraint => exact d.refines_note _

/-- A clause that is skipped changes the notes at most. -/
theorem apply_of_skipped (d : Draft) {cs : List Char}
    (h : classify cs = .namedConstraint ∨ classify cs = .otherConstraint) :
    (d.apply cs).table = d.table ∧ (d.apply cs).relationships = d.relationships := by
  unfold apply
  rcases h with h | h
  · rw [h]
    exact ⟨rfl, rfl⟩
  · rw [h]
    exact ⟨rfl, rfl⟩

/-! ### Several clauses -/

theorem refines_foldl_apply (d : Draft) (cs : List (List Char)) :
    d.Refines (definitionCount cs) (cs.foldl apply d) := by
  induction cs generalizing d with
  | nil => exact .refl d
  | cons c cs ih =>
    have hcount : definitionCount (c :: cs) =
        (if classify c = .column then 1 else 0) + definitionCount cs := by
      rw [definitionCount, List.countP_cons, Nat.add_comm]
      simp [definitionCount]
    rw [List.foldl_cons, hcount]
    exact (d.refines_apply c).trans (ih _)

/-- **Clauses only ever refine a table.** Whatever clauses have been applied to it before, they have refined
it by no more columns than they define, and one more clause refines it again: by one column if it defines
one, and by none if not. A constraint that is skipped leaves the table and the relationships as they are. -/
theorem clauses_refine (d : Draft) (before : List (List Char)) (clause : List Char) :
    let now := before.foldl apply d
    d.Refines (definitionCount before) now ∧
      now.Refines (if classify clause = .column then 1 else 0) (now.apply clause) ∧
      (classify clause = .namedConstraint ∨ classify clause = .otherConstraint →
        (now.apply clause).table = now.table ∧ (now.apply clause).relationships = now.relationships) := by
  intro now
  exact ⟨d.refines_foldl_apply before, now.refines_apply clause, now.apply_of_skipped⟩

end Draft

end Sql

end ErCanvas
