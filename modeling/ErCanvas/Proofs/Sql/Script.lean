import ErCanvas.Proofs.Sql.Semicolon

/-! # Scripts one after the other

What a statement adds to what has been read does not depend on what has been read before: it puts its
table, its relationships and its notes behind it (`add_append`). So two scripts with a semicolon between
them say what the first says and then what the second says, provided that no statement of the first is
left open (`progressOf_append`).

* `schemaOf`, `Accepted`: the schema of a script, the empty one if it is refused. -/

namespace ErCanvas.Sql

/-! ### Drafts -/

namespace Draft

/-- The draft with relationships and notes from before. -/
def after (d : Draft) (rs : List (Relationship String)) (ns : List Note) : Draft :=
  ⟨d.table, rs ++ d.relationships, ns ++ d.notes⟩

variable (d : Draft) (rs : List (Relationship String)) (ns : List Note)

theorem mark_after (name : String) (change : Column String → Column String) :
    (d.after rs ns).mark name change = (d.mark name change).after rs ns := rfl

theorem note_after (n : Note) : (d.after rs ns).note n = (d.note n).after rs ns := by
  simp [note, after]

theorem relate_after (table : String) (pair : String × String) :
    relate table (d.after rs ns) pair = (relate table d pair).after rs ns := by
  simp [relate, after, mark]

theorem applyPrimaryKey_after (cs : List Char) :
    (d.after rs ns).applyPrimaryKey cs = (d.applyPrimaryKey cs).after rs ns := by
  unfold applyPrimaryKey
  exact List.foldl_hom (after · rs ns) fun d name => mark_after d rs ns name Column.markPrimaryKey

theorem applyForeignKey_after (cs : List Char) :
    (d.after rs ns).applyForeignKey cs = (d.applyForeignKey cs).after rs ns := by
  unfold applyForeignKey
  cases search? foreignKeyHere? cs with
  | none => rfl
  | some k => exact List.foldl_hom (after · rs ns) fun d pair => relate_after d rs ns k.table pair

theorem applyColumn_after (cs : List Char) :
    (d.after rs ns).applyColumn cs = (d.applyColumn cs).after rs ns := by
  unfold applyColumn
  cases column? cs with
  | none => exact note_after d rs ns _
  | some c => simp [after]

/-- A clause does not look at the relationships and notes from before. -/
theorem apply_after (cs : List Char) : (d.after rs ns).apply cs = (d.apply cs).after rs ns := by
  unfold apply
  cases classify cs with
  | primaryKey => exact applyPrimaryKey_after d rs ns cs
  | foreignKey => exact applyForeignKey_after d rs ns cs
  | column => exact applyColumn_after d rs ns cs
  | namedConstraint => exact note_after d rs ns _
  | otherConstraint => exact note_after d rs ns _

theorem foldl_apply_after (cs : List (List Char)) :
    cs.foldl apply (d.after rs ns) = (cs.foldl apply d).after rs ns :=
  List.foldl_hom (after · rs ns) fun d c => apply_after d rs ns c

end Draft

/-! ### Progress -/

/-- What has been read, and then more. -/
def Progress.append (p q : Progress) : Progress :=
  ⟨p.tables ++ q.tables, p.relationships ++ q.relationships, p.notes ++ q.notes⟩

theorem draftOf_append (p q : Progress) (name body : List Char) :
    draftOf (p.append q) name body = (draftOf q name body).after p.relationships p.notes :=
  Draft.foldl_apply_after ⟨⟨String.ofList name, []⟩, q.relationships, q.notes⟩ _ _ _

theorem Progress.add_append (p q : Progress) (s : Statement) :
    (p.append q).add s = p.append (q.add s) := by
  cases s with
  | unclosed name => simp [add, append]
  | closed name body =>
    simp only [add, draftOf_append]
    simp [append, Draft.after]

/-- All that a list of statements says. -/
def read (ss : List Statement) : Progress := ss.foldl Progress.add .start

theorem read_append (ss ss' : List Statement) : read (ss ++ ss') = (read ss).append (read ss') := by
  have h : (read ss).append .start = read ss := by simp [Progress.append, Progress.start]
  calc read (ss ++ ss') = ss'.foldl Progress.add ((read ss).append .start) := by
        rw [h, read, List.foldl_append]; rfl
    _ = (read ss).append (read ss') :=
        List.foldl_hom (read ss).append fun q s => Progress.add_append (read ss) q s

/-- Relationships come with tables only. -/
theorem relationships_read {ss : List Statement} (h : (read ss).tables = []) :
    (read ss).relationships = [] := by
  induction ss with
  | nil => rfl
  | cons s ss ih =>
    rw [← List.singleton_append, read_append] at h ⊢
    obtain ⟨hs, hss⟩ := List.append_eq_nil_iff.1 h
    cases s with
    | unclosed name => exact ih hss
    | closed name body => cases hs

/-- **Two scripts with a semicolon between them** say what the one says and then what the other says. -/
theorem progressOf_append {a b : List Char} (ha : Uncommented a) (hb : Uncommented b)
    (hc : ∀ s ∈ statements (clean a), s.Closed) :
    progressOf (a ++ ';' :: b) = (progressOf a).append (progressOf b) := by
  obtain ⟨s, s', hs, hs', he⟩ := clean_append_semicolon ha hb
  have hst : statements (clean (a ++ ';' :: b)) = statements (clean a) ++ statements (clean b) := by
    rw [he, statements_append ⟨s, hs, rfl⟩ hc, statements_spaces_append hs']
  exact (congrArg read hst).trans (read_append _ _)

/-! ### Schemas -/

theorem extract_ofList (cs : List Char) : extract (String.ofList cs) =
    (if (progressOf cs).tables.isEmpty then .error .noStatements
      else .ok ⟨(progressOf cs).tables, (progressOf cs).relationships⟩, (progressOf cs).notes) := by
  rw [extract, String.toList_ofList]

/-- The schema of a script, without tables if the script is refused. -/
def schemaOf (script : String) : Schema String := (extract script).1.toOption.getD .empty

/-- The script has a schema. -/
def Accepted (script : String) : Prop := ∃ s, (extract script).1 = .ok s

theorem schemaOf_eq (script : String) :
    schemaOf script =
      ⟨(progressOf script.toList).tables, (progressOf script.toList).relationships⟩ := by
  cases ht : (progressOf script.toList).tables with
  | nil =>
    have hr : (progressOf script.toList).relationships = [] := relationships_read ht
    simp [schemaOf, extract, ht, hr, Except.toOption, Schema.empty]
  | cons t ts => simp [schemaOf, extract, ht, Except.toOption]

theorem accepted_iff {script : String} : Accepted script ↔ (progressOf script.toList).tables ≠ [] := by
  cases ht : (progressOf script.toList).tables with
  | nil => simp [Accepted, extract, ht]
  | cons t ts => simp [Accepted, extract, ht]

/-- **The schema of two scripts** with a semicolon between them has the tables and relationships of the
one and then those of the other, and is there as soon as one of the two is. -/
theorem schemaOf_append {a b : String} (ha : Uncommented a.toList) (hb : Uncommented b.toList)
    (hc : ∀ s ∈ statements (clean a.toList), s.Closed) :
    (schemaOf (a ++ ";" ++ b)).tables = (schemaOf a).tables ++ (schemaOf b).tables ∧
      (schemaOf (a ++ ";" ++ b)).relationships =
        (schemaOf a).relationships ++ (schemaOf b).relationships ∧
      (Accepted (a ++ ";" ++ b) ↔ Accepted a ∨ Accepted b) := by
  have hp : progressOf (a ++ ";" ++ b).toList =
      (progressOf a.toList).append (progressOf b.toList) := by
    rw [String.toList_append, String.toList_append, ← progressOf_append ha hb hc]
    simp
  simp only [schemaOf_eq, accepted_iff, hp]
  refine ⟨rfl, rfl, ?_⟩
  rw [← not_and_or, not_iff_not]
  exact List.append_eq_nil_iff

/-- Two scripts: a quote is left open behind the statement of the first, and the second has a statement
that is never closed. -/
def shopScripts : String × String :=
  (" CREATE TABLE Item (id int PRIMARY KEY) don't ",
    " CREATE TABLE Stock (item int REFERENCES Item (id)); CREATE TABLE Gone (id int")

theorem schemaOf_append_shop :
    (schemaOf (shopScripts.1 ++ ";" ++ shopScripts.2)).tables.map Table.name = ["Item", "Stock"] ∧
      (schemaOf (shopScripts.1 ++ ";" ++ shopScripts.2)).relationships =
        [⟨"Stock", "item", "Item", "id"⟩] ∧
      Accepted (shopScripts.1 ++ ";" ++ shopScripts.2) := by
  have ha : Uncommented shopScripts.1.toList := ⟨by decide +kernel, by decide +kernel⟩
  have hb : Uncommented shopScripts.2.toList := ⟨by decide +kernel, by decide +kernel⟩
  have hc : ∀ s ∈ statements (clean shopScripts.1.toList), s.Closed := by decide +kernel
  obtain ⟨ht, hr, hacc⟩ := schemaOf_append ha hb hc
  refine ⟨by rw [ht]; decide +kernel, by rw [hr]; decide +kernel, hacc.2 (.inl ?_)⟩
  exact accepted_iff.2 (by decide +kernel)

end ErCanvas.Sql
