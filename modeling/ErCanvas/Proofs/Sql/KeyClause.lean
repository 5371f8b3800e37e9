import Mathlib.Data.List.Nodup
import ErCanvas.Proofs.Sql.KeyList
import ErCanvas.Proofs.Sql.TableDef

/-! # Key clauses

Keys can be written with the columns or in clauses of their own: a primary key clause that lists the key
columns, and a foreign key clause for every column with a reference. If no two columns have the same
name, both ways say the same (`extract_keyScript`). -/

namespace ErCanvas.Sql

/-! ### Primary key clauses -/

def primaryKeyText (p : Spelling primary) (k : Spelling key) (ws : List Word) : List Char :=
  sentence [p.text, k.text, '(' :: (listed (ws.map Word.text) ++ [')'])]

section

variable (p : Spelling primary) (k : Spelling key) {ws : List Word}

theorem fragment_primaryKeyText : Fragment (primaryKeyText p k ws) := by
  have hws : ∀ c ∈ ws.map Word.text, Fragment c := by
    intro c hc
    obtain ⟨w, -, rfl⟩ := List.mem_map.1 hc
    exact .word w
  refine .sentence (by simp) ?_
  simp only [List.forall_mem_cons, List.not_mem_nil, IsEmpty.forall_iff, implies_true, and_true]
  exact ⟨.word _, .word _, .parens (inside_listed hws)⟩

/-- The words are the identifiers of a key clause. -/
theorem apply_primaryKeyText (hne : ws ≠ []) (d : Draft) : d.apply (primaryKeyText p k ws) =
    (ws.map fun w => String.ofList w.text).foldl
      (fun d name => d.mark name Column.markPrimaryKey) d := by
  have hwritten : (ws.map Word.bare).map Identifier.written = ws.map Word.text := by
    rw [List.map_map]
    exact List.map_congr_left fun w _ => w.written_bare
  have htext : primaryKeyText p k ws =
      PrimaryKeyDef.text ⟨p, k, ws.map Word.bare, by simpa using hne⟩ := by
    rw [PrimaryKeyDef.text, hwritten, primaryKeyText]
  rw [htext, PrimaryKeyDef.apply_text, List.map_map]
  rfl

end

/-! ### Foreign key clauses -/

def foreignKeyText (f : Spelling foreign) (k : Spelling key) (column : Word)
    (r : Spelling references) (table target : Word) : List Char :=
  sentence [f.text, k.text, '(' :: (column.text ++ [')']), r.text,
    table.text ++ '(' :: (target.text ++ [')'])]

section

variable (f : Spelling foreign) (k : Spelling key) (column : Word) (r : Spelling references)
  (table target : Word)

theorem fragment_foreignKeyText : Fragment (foreignKeyText f k column r table target) := by
  refine .sentence (by simp) ?_
  simp only [List.forall_mem_cons, List.not_mem_nil, IsEmpty.forall_iff, implies_true, and_true]
  exact ⟨.word _, .word _, .parens (Fragment.word column).toInside, .word _,
    (Fragment.word table).append (.parens (Fragment.word target).toInside)⟩

theorem apply_foreignKeyText (d : Draft) : d.apply (foreignKeyText f k column r table target) =
    Draft.relate (String.ofList table.text) d
      (String.ofList column.text, String.ofList target.text) := by
  have htext : foreignKeyText f k column r table target = ForeignKeyDef.text
      ⟨f, k, [column.bare], List.cons_ne_nil _ _, r, none, table.bare, [target.bare]⟩ := by
    simp [foreignKeyText, ForeignKeyDef.text, ForeignKeyDef.tableText, ForeignKeyDef.targetsText,
      Word.written_bare, listed_singleton]
  rw [htext, ForeignKeyDef.apply_text]
  rfl

end

/-! ### Marks by name -/

theorem sameName_iff {a b : String} : sameName a b = true ↔ Text.lower a = Text.lower b :=
  beq_iff_eq

/-- No two columns have the same name, whatever its case. -/
def Distinct (cs : List (Column String)) : Prop := (cs.map fun c => Text.lower c.name).Nodup

section

variable {cs ds : List (Column String)} {name : String} (change : Column String → Column String)

theorem markFirst_append (h : ∀ d ∈ ds, sameName d.name name = false) :
    markFirst name change (ds ++ cs) = ds ++ markFirst name change cs := by
  induction ds with
  | nil => rfl
  | cons d ds ih =>
    obtain ⟨hd, hds⟩ := List.forall_mem_cons.1 h
    rw [List.cons_append, markFirst, if_neg (by simp [hd]), ih hds]; rfl

/-- A column is the first of its name, as there is no other. -/
theorem Distinct.isFirst_iff (h : Distinct cs) {i : ℕ} {c : Column String} (hc : cs[i]? = some c) :
    IsFirst name cs i ↔ sameName c.name name := by
  obtain ⟨hi, rfl⟩ := List.getElem?_eq_some_iff.1 hc
  rw [IsFirst, List.findIdx?_eq_some_iff_getElem]
  refine ⟨fun h => h.2.1, fun hname => ⟨hi, hname, fun j hj hother => ?_⟩⟩
  have hlower : (cs.map fun c => Text.lower c.name)[i]? = (cs.map fun c => Text.lower c.name)[j]? := by
    rw [List.getElem?_map, List.getElem?_map, hc, List.getElem?_eq_getElem (hj.trans hi), Option.map_some,
      Option.map_some, sameName_iff.1 hname, sameName_iff.1 hother]
  exact hj.ne' ((List.getElem?_inj (by simpa using hi) h).1 hlower)

end

/-- A list of names marks the columns that it names, in any case. -/
theorem foldl_mark_primaryKey (names : List String) {d : Draft} (h : Distinct d.table.columns) :
    names.foldl (fun d name => d.mark name Column.markPrimaryKey) d =
      ⟨⟨d.table.name, d.table.columns.map fun c =>
        if Text.lower c.name ∈ names.map Text.lower then c.markPrimaryKey else c⟩,
        d.relationships, d.notes⟩ := by
  have hmem : ∀ c : Column String, Text.lower c.name ∈ names.map Text.lower ↔
      ∃ n ∈ names, sameName c.name n := by
    intro c
    simp only [List.mem_map, sameName_iff, eq_comm (a := Text.lower c.name)]
  have hcolumns : (d.table.columns.mapIdx fun i c =>
      if ∃ n ∈ names, IsFirst n d.table.columns i then c.markPrimaryKey else c) =
      d.table.columns.map fun c => if ∃ n ∈ names, sameName c.name n then c.markPrimaryKey else c :=
    mapIdx_eq_map fun i c hc => by simp only [h.isFirst_iff hc]
  rw [Draft.foldl_mark_primaryKey, hcolumns]
  simp only [hmem]

/-! ### Tables with key clauses -/

/-- The keywords that key clauses are written with. -/
structure KeyWords where
  primary : Spelling primary
  primaryKey : Spelling key
  foreign : Spelling foreign
  foreignKey : Spelling key

namespace ColumnDef

/-- The definition without keys. -/
def bare (c : ColumnDef) : ColumnDef := { c with primaryKey := none, reference := none }

/-- The clause for the reference of a column, if it has one. -/
def foreignKeys (s : KeyWords) (c : ColumnDef) : List (List Char) :=
  match c.reference with
  | none => []
  | some (r, table, target) => [foreignKeyText s.foreign s.foreignKey c.name r table target]

/-- The column as a foreign key, if the definition has a reference. -/
def refer (c : ColumnDef) (column : Column String) : Column String :=
  match c.target with
  | none => column
  | some r => column.markForeignKey r.table r.column

/-- The column of the definition without its reference. -/
def keyed (c : ColumnDef) : Column String :=
  if c.primaryKey.isSome then c.bare.column.markPrimaryKey else c.bare.column

theorem name_keyed (c : ColumnDef) : c.keyed.name = String.ofList c.name.text := by
  unfold keyed
  split <;> rfl

/-- Keys that are marked later make the same column. -/
theorem refer_keyed (c : ColumnDef) : c.refer c.keyed = c.column := by
  have hbare : c.bare.column =
      ⟨String.ofList c.name.text, c.typeName, false, false, c.notNull.isNone, none⟩ := rfl
  rw [keyed, hbare, refer, column, target]
  cases c.primaryKey <;> cases c.reference <;> rfl

theorem fragment_of_mem_foreignKeys {s : KeyWords} {c : ColumnDef} {t : List Char}
    (h : t ∈ c.foreignKeys s) : Fragment t := by
  unfold foreignKeys at h
  split at h
  · cases h
  · rw [List.mem_singleton.1 h]
    exact fragment_foreignKeyText ..

theorem foldl_foreignKeys (s : KeyWords) (c : ColumnDef) {column : Column String}
    {ds cs : List (Column String)} (hc : column.name = String.ofList c.name.text)
    (hds : ∀ d ∈ ds, sameName d.name (String.ofList c.name.text) = false) (table : String)
    (rs : List (Relationship String)) (ns : List Note) :
    (c.foreignKeys s).foldl Draft.apply ⟨⟨table, ds ++ column :: cs⟩, rs, ns⟩ =
      ⟨⟨table, ds ++ c.refer column :: cs⟩, rs ++ (c.relationship? table).toList, ns⟩ := by
  unfold foreignKeys refer relationship? target
  cases c.reference with
  | none => simp
  | some o =>
    obtain ⟨r, rt, rc⟩ := o
    have hn : sameName column.name (String.ofList c.name.text) = true := by
      rw [hc, sameName_iff]
    rw [List.foldl_cons, List.foldl_nil, apply_foreignKeyText, Draft.relate, Draft.mark]
    simp only [markFirst_append _ hds, markFirst, hn]
    rfl

/-- The clauses of all columns, of which those before the columns `cs` are done. -/
theorem foldl_flatMap_foreignKeys (s : KeyWords) {g : ColumnDef → Column String}
    (hg : ∀ c, (g c).name = String.ofList c.name.text) {cs : List ColumnDef}
    (hcs : (cs.map fun c => c.name.lower).Nodup) {ds : List (Column String)}
    (hds : ∀ d ∈ ds, ∀ c ∈ cs, sameName d.name (String.ofList c.name.text) = false) (table : String)
    (rs : List (Relationship String)) (ns : List Note) :
    (cs.flatMap (foreignKeys s)).foldl Draft.apply ⟨⟨table, ds ++ cs.map g⟩, rs, ns⟩ =
      ⟨⟨table, ds ++ cs.map fun c => c.refer (g c)⟩,
        rs ++ cs.filterMap (relationship? table), ns⟩ := by
  induction cs generalizing ds rs with
  | nil => simp
  | cons c cs ih =>
    obtain ⟨hc, hcs⟩ := List.nodup_cons.1 hcs
    have hname : (c.refer (g c)).name = String.ofList c.name.text := by
      unfold refer
      split
      · exact hg c
      · exact hg c
    have hds' : ∀ d ∈ ds ++ [c.refer (g c)], ∀ c' ∈ cs,
        sameName d.name (String.ofList c'.name.text) = false := by
      intro d hd c' hc'
      rcases List.mem_append.1 hd with hd | hd
      · exact hds d hd c' (.tail _ hc')
      · rw [List.mem_singleton.1 hd, hname, ← Bool.not_eq_true, sameName_iff, Word.lower_ofList,
          Word.lower_ofList, String.ofList_inj]
        intro he
        exact hc (List.mem_map.2 ⟨c', hc', he.symm⟩)
    have hds'' : ∀ d ∈ ds, sameName d.name (String.ofList c.name.text) = false :=
      fun d hd => hds d hd c (.head _)
    have ih := ih hcs hds' (rs ++ (c.relationship? table).toList)
    rw [List.append_assoc] at ih
    rw [List.flatMap_cons, List.foldl_append, List.map_cons, foldl_foreignKeys s c (hg c) hds'']
    refine ih.trans ?_
    cases h : c.relationship? table <;> simp [h]

end ColumnDef

namespace TableDef

/-- The statement with its keys in clauses of their own; the primary key lists the given words. -/
def keyCreation (t : TableDef) (s : KeyWords) (ws : List Word) : Creation where
  create := t.create
  table := t.table
  name := t.name
  clauses := (t.columns.map ColumnDef.bare).map ColumnDef.text ++
    primaryKeyText s.primary s.primaryKey ws :: t.columns.flatMap (ColumnDef.foreignKeys s)
  fragments c hc := by
    rcases List.mem_append.1 hc with hc | hc
    · obtain ⟨d, -, rfl⟩ := List.mem_map.1 hc
      exact d.fragment_text
    · rcases List.mem_cons.1 hc with rfl | hc
      · exact fragment_primaryKeyText ..
      · obtain ⟨d, -, hd⟩ := List.mem_flatMap.1 hc
        exact ColumnDef.fragment_of_mem_foreignKeys hd
  gap := t.gap
  gap_blank := t.gap_blank

def keyScript (t : TableDef) (s : KeyWords) (ws : List Word) : String :=
  String.ofList (scriptOf [t.keyCreation s ws])

section

variable {t : TableDef} (hd : (t.columns.map fun c => c.name.lower).Nodup)

include hd in
theorem distinct_bare : Distinct ((t.columns.map ColumnDef.bare).map ColumnDef.column) := by
  have hlower : ∀ c : ColumnDef, Text.lower c.bare.column.name = String.ofList c.name.lower :=
    fun c => c.name.lower_ofList
  have hinj : Function.Injective String.ofList := fun _ _ h => String.ofList_inj.1 h
  unfold Distinct
  rw [List.map_map, List.map_map]
  have hnames := List.Nodup.map hinj hd
  rw [List.map_map] at hnames
  simpa only [Function.comp_def, hlower] using hnames

/-- The primary key clause makes the columns what they are but for their references. -/
theorem map_markPrimaryKey {ws : List Word}
    (hws : ∀ c ∈ t.columns, c.primaryKey.isSome ↔ c.name.lower ∈ ws.map Word.lower) :
    ((t.columns.map ColumnDef.bare).map ColumnDef.column).map (fun c =>
      if Text.lower c.name ∈ (ws.map fun w => String.ofList w.text).map Text.lower
        then c.markPrimaryKey else c) = t.columns.map ColumnDef.keyed := by
  have hinj : Function.Injective String.ofList := fun _ _ h => String.ofList_inj.1 h
  have hlower : (ws.map fun w => String.ofList w.text).map Text.lower =
      (ws.map Word.lower).map String.ofList := by
    rw [List.map_map, List.map_map]
    exact List.map_congr_left fun w _ => w.lower_ofList
  rw [List.map_map, List.map_map, hlower]
  refine List.map_congr_left fun c hc => ?_
  have hname : Text.lower c.bare.column.name = String.ofList c.name.lower := c.name.lower_ofList
  simp only [Function.comp_apply, hname, List.mem_map_of_injective hinj, ← hws c hc]
  rfl

include hd in
theorem draft_keyCreation (s : KeyWords) {ws : List Word} (hne : ws ≠ [])
    (hws : ∀ c ∈ t.columns, c.primaryKey.isSome ↔ c.name.lower ∈ ws.map Word.lower) :
    (t.keyCreation s ws).draft = t.creation.draft := by
  have hrelationships : (t.columns.map ColumnDef.bare).filterMap
      (ColumnDef.relationship? (String.ofList t.name.text)) = [] := by
    rw [List.filterMap_map]
    exact List.filterMap_eq_nil_iff.2 fun c _ => rfl
  have hcolumns := foldl_apply_columns ⟨⟨String.ofList t.name.text, []⟩, [], []⟩
    (t.columns.map ColumnDef.bare)
  have hforeign := ColumnDef.foldl_flatMap_foreignKeys s ColumnDef.name_keyed hd
    (List.forall_mem_nil _) (String.ofList t.name.text) [] []
  rw [t.draft_creation]
  show ((t.columns.map ColumnDef.bare).map ColumnDef.text ++ _ :: _).foldl Draft.apply
    ⟨⟨String.ofList t.name.text, []⟩, [], []⟩ = _
  rw [List.foldl_append, List.foldl_cons, hcolumns, apply_primaryKeyText _ _ hne, List.nil_append,
    hrelationships, foldl_mark_primaryKey _ (distinct_bare hd)]
  simp only [List.nil_append, map_markPrimaryKey hws]
  simp only [List.nil_append, ColumnDef.refer_keyed] at hforeign
  exact hforeign

end

/-- **Keys in clauses of their own** say the same as keys with the columns. -/
theorem extract_keyScript {t : TableDef} (s : KeyWords) {ws : List Word}
    (hd : (t.columns.map fun c => c.name.lower).Nodup) (hne : ws ≠ [])
    (hws : ∀ c ∈ t.columns, c.primaryKey.isSome ↔ c.name.lower ∈ ws.map Word.lower) :
    extract (t.keyScript s ws) = extract (script [t]) := by
  have hp : progressOf (t.keyScript s ws).toList = progressOf (script [t]).toList := by
    rw [keyScript, script, String.toList_ofList, String.toList_ofList, progressOf_script,
      progressOf_script, List.map_singleton, List.map_singleton, List.map_singleton]
    simp only [List.flatMap_singleton, draft_keyCreation hd s hne hws]
  rw [extract, extract, hp]

def mixedKeyWords : KeyWords where
  primary := .of "Primary" (by decide) (by decide)
  primaryKey := .of "Key" (by decide) (by decide)
  foreign := .of "FOREIGN" (by decide) (by decide)
  foreignKey := .of "Key" (by decide) (by decide)

theorem extract_keyScript_share :
    let ws : List Word := [.of "POS" (by decide), .of "Check" (by decide)]
    shareDef.keyScript mixedKeyWords ws = "create table if (check Numeric(10,2) Not NULL, " ++
      "pos point, text varchar(80), Primary Key (POS, Check), " ++
      "FOREIGN Key (check) References Author(key_no));" ∧
    extract (shareDef.keyScript mixedKeyWords ws) = extract (script [shareDef]) := by
  intro ws
  have hd : (shareDef.columns.map fun c => c.name.lower).Nodup := by decide +kernel
  have hws : ∀ c ∈ shareDef.columns, c.primaryKey.isSome ↔ c.name.lower ∈ ws.map Word.lower := by
    decide +kernel
  exact ⟨by decide +kernel, extract_keyScript mixedKeyWords hd (List.cons_ne_nil _ _) hws⟩

end TableDef

end ErCanvas.Sql
