import ErCanvas.Proofs.Schema.Marked
import ErCanvas.Proofs.Sql.Identifier

/-! # Key clauses over lists of columns

A key clause of a table names its columns in a list. A primary key marks the first column of every name. A
foreign key relates every name of its list to the name at the same place of the other list, or to itself
if there is none, and the first column of a name gets the reference that comes last for it. Names without a
column mark nothing.

* `PrimaryKeyDef`, `ForeignKeyDef`: the clauses, as they are written.
* `keys_exact`: what they do, and all that they do. -/

namespace ErCanvas.Sql

/-! ### Primary keys -/

/-- The clause of a primary key. -/
structure PrimaryKeyDef where
  primary : Spelling primary
  key : Spelling key
  columns : List Identifier
  columns_ne_nil : columns ≠ []

namespace PrimaryKeyDef

variable (p : PrimaryKeyDef)

def text : List Char :=
  sentence [p.primary.text, p.key.text, '(' :: (listed (p.columns.map Identifier.written) ++ [')'])]

theorem text_eq : p.text = p.primary.text ++ ' ' :: (p.key.text ++ ' ' :: '(' ::
    (listed (p.columns.map Identifier.written) ++ ')' :: [])) := by
  rw [text, sentence_cons_cons, sentence_cons_cons, sentence_singleton]

end PrimaryKeyDef

/-! ### Foreign keys -/

/-- The clause of a foreign key. The table may be qualified, and the list of its columns may be left out. -/
structure ForeignKeyDef where
  foreign : Spelling foreign
  key : Spelling key
  columns : List Identifier
  columns_ne_nil : columns ≠ []
  references : Spelling references
  schema : Option Identifier
  table : Identifier
  targets : List Identifier

namespace ForeignKeyDef

variable (f : ForeignKeyDef)

/-- The name of the table, behind what qualifies it. -/
def tableText : List Char :=
  match f.schema with
  | none => f.table.written
  | some s => s.written ++ '.' :: f.table.written

/-- The columns of the table, if there are any. -/
def targetsText : List Char :=
  match f.targets with
  | [] => []
  | t :: ts => '(' :: (listed ((t :: ts).map Identifier.written) ++ [')'])

def text : List Char :=
  sentence [f.foreign.text, f.key.text, '(' :: (listed (f.columns.map Identifier.written) ++ [')']),
    f.references.text, f.tableText ++ f.targetsText]

/-- Each column with the one that it refers to. -/
def pairs : List (String × String) :=
  f.columns.mapIdx fun i c => (c.name, (f.targets[i]?.elim c.name Identifier.name))

theorem text_eq : f.text = f.foreign.text ++ ' ' :: (f.key.text ++ ' ' :: '(' ::
    (listed (f.columns.map Identifier.written) ++ ')' :: ' ' :: (f.references.text ++ ' ' ::
      (f.tableText ++ f.targetsText)))) := by
  simp [text, sentence_cons_cons, sentence_singleton]

theorem skipBlanks_tableText : skipBlanks (f.tableText ++ f.targetsText) = f.tableText ++ f.targetsText := by
  unfold tableText
  split
  · exact f.table.skipBlanks_append
  · rename_i s _
    rw [List.append_assoc]
    exact s.skipBlanks_append

theorem qualifiedName?_tableText :
    qualifiedName? (f.tableText ++ f.targetsText) = some (f.table.text, f.targetsText) := by
  have hends : Ends f.targetsText ∧ mark? '.' f.targetsText = none := by
    unfold targetsText
    split
    · exact ⟨ends_nil, rfl⟩
    · exact ⟨ends_cons (by simp) _, rfl⟩
  unfold tableText
  split
  · exact f.table.qualifiedName?_append hends.1 hends.2
  · rename_i s _
    rw [List.append_assoc, List.cons_append]
    exact f.table.qualifiedName?_point s hends.1 hends.2

theorem group?_targetsText : ((group? f.targetsText).map fun p => (names p.1).map String.ofList).getD [] =
    f.targets.map Identifier.name := by
  unfold targetsText
  cases f.targets with
  | nil => rfl
  | cons t ts =>
    have hgroup : group? ('(' :: (listed ((t :: ts).map Identifier.written) ++ [')'])) =
        some (listed ((t :: ts).map Identifier.written), []) :=
      group?_eq rfl (listed_written_ne_nil (List.cons_ne_nil t ts)) (close_not_mem_listed _)
    rw [hgroup, Option.map_some, names_listed, List.map_map]
    rfl

/-- What is read of the clause. -/
theorem search?_text : search? Draft.foreignKeyHere? f.text =
    some ⟨f.columns.map Identifier.name, f.table.name, f.targets.map Identifier.name⟩ := by
  rw [text_eq, Draft.foreignKey_append f.key (listed_written_ne_nil f.columns_ne_nil)
    (close_not_mem_listed _) f.foreign f.references f.skipBlanks_tableText f.qualifiedName?_tableText,
    names_listed, group?_targetsText, List.map_map]
  rfl

theorem pairs_eq : (⟨f.columns.map Identifier.name, f.table.name, f.targets.map Identifier.name⟩ :
    Draft.ForeignKey).pairs = f.pairs := by
  rw [Draft.ForeignKey.pairs, pairs, List.mapIdx_eq_zipIdx_map, List.zipIdx_map, List.map_map]
  refine List.map_congr_left fun e _ => ?_
  have hget : (f.targets.map Identifier.name).getD e.2 e.1.name =
      f.targets[e.2]?.elim e.1.name Identifier.name := by
    rw [List.getD_eq_getElem?_getD, List.getElem?_map]
    cases f.targets[e.2]? <;> rfl
  exact congrArg (e.1.name, ·) hget

end ForeignKeyDef

/-! ### Marks on a draft -/

/-- A column that is marked as part of the primary key, once or more often. -/
theorem foldl_markPrimaryKey {α : Type} (ms : List α) (c : Column String) :
    ms.foldl (fun c _ => c.markPrimaryKey) c = if ms = [] then c else c.markPrimaryKey := by
  induction ms generalizing c with
  | nil => rfl
  | cons m ms ih =>
    rw [List.foldl_cons, ih, if_neg (List.cons_ne_nil m ms)]
    split <;> rfl

namespace Draft

theorem foldl_mark (names : List String) (change : Column String → Column String) (d : Draft) :
    names.foldl (fun d name => d.mark name change) d =
      { d with table := ⟨d.table.name, (names.map (·, change)).foldl
          (fun cs m => markFirst m.1 m.2 cs) d.table.columns⟩ } := by
  induction names generalizing d with
  | nil => rfl
  | cons n names ih =>
    rw [List.foldl_cons, ih, List.map_cons, List.foldl_cons]
    rfl

/-- A list of names marks the first column of each name. -/
theorem foldl_mark_primaryKey (names : List String) (d : Draft) :
    names.foldl (fun d name => d.mark name Column.markPrimaryKey) d =
      ⟨⟨d.table.name, d.table.columns.mapIdx fun i c =>
          if ∃ n ∈ names, IsFirst n d.table.columns i then c.markPrimaryKey else c⟩,
        d.relationships, d.notes⟩ := by
  have hnames : ∀ m ∈ names.map (·, @Column.markPrimaryKey String), ∀ c, (m.2 c).name = c.name := by
    intro m hm c
    obtain ⟨n, -, rfl⟩ := List.mem_map.1 hm
    rfl
  have hnone : ∀ i, names.filter (fun n => IsFirst n d.table.columns i) = [] ↔
      ¬ ∃ n ∈ names, IsFirst n d.table.columns i := by simp
  rw [foldl_mark, foldl_markFirst hnames]
  simp only [List.filter_map, List.foldl_map, Function.comp_def, foldl_markPrimaryKey, hnone, ite_not]

theorem foldl_relate (table : String) (pairs : List (String × String)) (d : Draft) :
    pairs.foldl (relate table) d =
      ⟨⟨d.table.name, (pairs.map fun p => (p.1, Column.markForeignKey table p.2)).foldl
          (fun cs m => markFirst m.1 m.2 cs) d.table.columns⟩,
        d.relationships ++ pairs.map fun p => ⟨d.table.name, p.1, table, p.2⟩, d.notes⟩ := by
  induction pairs generalizing d with
  | nil => simp
  | cons p pairs ih =>
    rw [List.foldl_cons, ih, List.map_cons, List.foldl_cons, List.map_cons]
    simp [relate, mark]

end Draft

/-- Of several references, the column keeps the last one. -/
theorem foldl_markForeignKey (table : String) (pairs : List (String × String)) (c : Column String) :
    pairs.foldl (fun c p => c.markForeignKey table p.2) c =
      pairs.getLast?.elim c fun p => c.markForeignKey table p.2 := by
  induction pairs generalizing c with
  | nil => rfl
  | cons p pairs ih =>
    rw [List.foldl_cons, ih, List.getLast?_cons]
    cases pairs.getLast? <;> rfl

/-! ### Key clauses on a draft -/

theorem PrimaryKeyDef.apply_text (p : PrimaryKeyDef) (d : Draft) : d.apply p.text =
    (p.columns.map Identifier.name).foldl (fun d name => d.mark name Column.markPrimaryKey) d := by
  have hkey := Draft.primaryKey?_append p.key [] (listed_written_ne_nil p.columns_ne_nil)
    (close_not_mem_listed p.columns) p.primary
  rw [Draft.apply, p.text_eq, classify_primaryKey]
  show d.applyPrimaryKey _ = _
  rw [Draft.applyPrimaryKey, hkey, names_listed, List.map_map]
  rfl

theorem ForeignKeyDef.apply_text (f : ForeignKeyDef) (d : Draft) :
    d.apply f.text = f.pairs.foldl (Draft.relate f.table.name) d := by
  have hkind : classify f.text = .foreignKey := by
    rw [f.text_eq]
    exact classify_foreignKey f.key _ f.foreign
  rw [Draft.apply, hkind]
  show d.applyForeignKey _ = _
  rw [Draft.applyForeignKey, f.search?_text]
  show ((_ : Draft.ForeignKey).pairs).foldl _ d = _
  rw [f.pairs_eq]

/-- **The effect of key clauses** on any table under construction. A primary key makes the first column of
each of its names a primary key that is not nullable. A foreign key gives the first column of each of its
names the reference that comes last for the column, and adds one relationship for each name, in their
order. Nothing else changes. -/
theorem keys_exact (d : Draft) (p : PrimaryKeyDef) (f : ForeignKeyDef) :
    d.apply p.text =
      ⟨⟨d.table.name, d.table.columns.mapIdx fun i c =>
          if ∃ n ∈ p.columns, IsFirst n.name d.table.columns i then
            { c with isPrimaryKey := true, isNullable := false }
          else c⟩,
        d.relationships, d.notes⟩ ∧
    d.apply f.text =
      ⟨⟨d.table.name, d.table.columns.mapIdx fun i c =>
          (f.pairs.filter fun q => IsFirst q.1 d.table.columns i).getLast?.elim c fun q =>
            { c with isForeignKey := true, references := some ⟨f.table.name, q.2⟩ }⟩,
        d.relationships ++ f.pairs.map fun q => ⟨d.table.name, q.1, f.table.name, q.2⟩, d.notes⟩ := by
  constructor
  · rw [p.apply_text, Draft.foldl_mark_primaryKey]
    simp only [List.mem_map, exists_exists_and_eq_and]
    rfl
  · have hnames : ∀ m ∈ f.pairs.map (fun q => (q.1, Column.markForeignKey f.table.name q.2)),
        ∀ c, (m.2 c).name = c.name := by
      intro m hm c
      obtain ⟨q, -, rfl⟩ := List.mem_map.1 hm
      rfl
    rw [f.apply_text, Draft.foldl_relate, foldl_markFirst hnames]
    simp only [List.filter_map, List.foldl_map, Function.comp_def, foldl_markForeignKey]
    rfl

/-- Names without a partner refer to themselves, as they are written. -/
example : ((⟨⟨"t", [.make "a" "int" false false true none]⟩, [], []⟩ : Draft).apply
    "FOREIGN KEY (b, [A], c) REFERENCES s.u(x)".toList).relationships =
      [⟨"t", "b", "u", "x"⟩, ⟨"t", "A", "u", "A"⟩, ⟨"t", "c", "u", "c"⟩] := by
  decide +kernel

end ErCanvas.Sql
