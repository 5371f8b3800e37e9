import ErCanvas.Proofs.Schema.Column
import ErCanvas.Sql.Script

/-! # What every column of a script satisfies

The columns of a script are made by column clauses and marked by key clauses. A property that new
columns have and marked columns keep (`Column.Kept`) is therefore a property of every column of every
script (`progressOf_columns`, `extractFrom_columns`). -/

namespace ErCanvas

/-- A property that new columns have and that columns keep when they are marked. -/
structure Column.Kept (P : Column String → Prop) : Prop where
  make : ∀ name type p n r, P (make name type p false n r)
  markPrimaryKey : ∀ c, P c → P c.markPrimaryKey
  markForeignKey : ∀ table column c, P c → P (c.markForeignKey table column)

theorem Column.kept_normal : Kept Normal where
  make name type p n r := normal_make name type p false n r
  markPrimaryKey _ h := h.markPrimaryKey
  markForeignKey table column _ h := h.markForeignKey table column

variable {P : Column String → Prop}

theorem markFirst_kept {change : Column String → Column String} (hc : ∀ c, P c → P (change c))
    (name : String) {cs : List (Column String)} (h : ∀ c ∈ cs, P c) :
    ∀ c ∈ markFirst name change cs, P c := by
  induction cs with
  | nil => exact h
  | cons c cs ih =>
    obtain ⟨h1, h2⟩ := List.forall_mem_cons.1 h
    rw [markFirst]
    split
    · exact List.forall_mem_cons.2 ⟨hc c h1, h2⟩
    · exact List.forall_mem_cons.2 ⟨h1, ih h2⟩

namespace Sql

/-! ### Clauses -/

/-- Every column of the draft has the property. -/
def Draft.Has (P : Column String → Prop) (d : Draft) : Prop := ∀ c ∈ d.table.columns, P c

namespace Draft

variable {d : Draft}

theorem Has.mark {change : Column String → Column String} (hc : ∀ c, P c → P (change c))
    (name : String) (h : d.Has P) : (d.mark name change).Has P := markFirst_kept hc name h

theorem Has.relate (hP : Column.Kept P) (table : String) (pair : String × String) (h : d.Has P) :
    (relate table d pair).Has P :=
  h.mark (hP.markForeignKey table pair.2) pair.1

theorem Has.applyPrimaryKey (hP : Column.Kept P) (cs : List Char) (h : d.Has P) :
    (d.applyPrimaryKey cs).Has P :=
  List.foldlRecOn _ _ h fun _ hd name _ => hd.mark hP.markPrimaryKey name

theorem Has.applyForeignKey (hP : Column.Kept P) (cs : List Char) (h : d.Has P) :
    (d.applyForeignKey cs).Has P := by
  unfold Draft.applyForeignKey
  split
  · exact h
  · rename_i k _
    exact List.foldlRecOn _ _ h fun _ hd pair _ => hd.relate hP k.table pair

theorem column?_kept (hP : Column.Kept P) {cs : List Char} {c : Column String}
    (h : column? cs = some c) : P c := by
  unfold column? at h
  split at h
  · cases h
  · split at h
    · cases h
    · cases h; exact hP.make ..

theorem Has.applyColumn (hP : Column.Kept P) (cs : List Char) (h : d.Has P) :
    (d.applyColumn cs).Has P := by
  unfold Draft.applyColumn
  split
  · exact h
  · rename_i c hc
    intro c' hc'
    rcases List.mem_append.1 hc' with h' | h'
    · exact h c' h'
    · rw [List.mem_singleton.1 h']; exact column?_kept hP hc

/-- A clause keeps the property, whatever kind it is of. -/
theorem Has.apply (hP : Column.Kept P) (cs : List Char) (h : d.Has P) : (d.apply cs).Has P := by
  unfold Draft.apply
  split
  · exact h.applyPrimaryKey hP cs
  · exact h.applyForeignKey hP cs
  · exact h.applyColumn hP cs
  · exact h

end Draft

/-! ### Scripts -/

/-- Every column of every table so far has the property. -/
def Progress.Has (P : Column String → Prop) (p : Progress) : Prop :=
  ∀ t ∈ p.tables, ∀ c ∈ t.columns, P c

theorem draftOf_has (hP : Column.Kept P) (p : Progress) (name body : List Char) :
    (draftOf p name body).Has P := by
  have h0 : Draft.Has P ⟨⟨String.ofList name, []⟩, p.relationships, p.notes⟩ := by
    intro c hc; cases hc
  exact List.foldlRecOn _ _ h0 fun _ hd cs _ => hd.apply hP cs

theorem Progress.Has.add (hP : Column.Kept P) {p : Progress} (h : p.Has P) (s : Statement) :
    (p.add s).Has P := by
  cases s with
  | unclosed name => exact h
  | closed name body =>
    intro t ht
    rcases List.mem_append.1 ht with ht | ht
    · exact h t ht
    · rw [List.mem_singleton.1 ht]; exact draftOf_has hP p name body

/-- **Every column that is read from a script has the property.** -/
theorem progressOf_columns (hP : Column.Kept P) (cs : List Char) : (progressOf cs).Has P := by
  have h0 : Progress.start.Has P := by intro t ht; cases ht
  exact List.foldlRecOn _ _ h0 fun _ hp s _ => hp.add hP s

theorem extractFrom_columns (hP : Column.Kept P) {v : Json} {s : Schema String}
    (h : (extractFrom v).1 = .ok s) : ∀ t ∈ s.tables, ∀ c ∈ t.columns, P c := by
  cases v with
  | str script =>
    simp only [extractFrom, extract] at h
    split at h
    · cases h
    · cases h; exact progressOf_columns hP script.toList
  | _ => cases h

end Sql

end ErCanvas
