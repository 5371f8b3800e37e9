import Mathlib.Data.List.Forall2
import ErCanvas.Declaration
import ErCanvas.Proofs.Outcome

/-! # What a declarative document declares

The documents that are accepted are described by their shape, without regard to how they are read, and
what such a document declares is described key by key. A document is accepted exactly if it has
the shape, and then its schema is the one that it declares; any other text gives no schema at all.

* `WellShaped`: the shape of a document.
* `Declares`: the schema is what the document declares.
* `extract_wellShaped`: which texts are accepted, and what they give. -/

namespace ErCanvas.Declaration

/-! ### Shapes -/

/-- The entry at the key is a text. -/
def HasText (key : String) (entries : List (String × Json)) : Prop :=
  ∃ s, Json.find? key entries = some (.str s)

/-- The entry at the key is there and counts as true. -/
def HasTruth (key : String) (entries : List (String × Json)) : Prop :=
  ∃ v, Json.find? key entries = some v ∧ v.isTruthy = true

/-- The value is an object whose entries have the property. -/
def IsObject (P : List (String × Json) → Prop) (v : Json) : Prop :=
  ∃ entries, v = .obj entries ∧ P entries

/-- The entries of a foreign key that is one. -/
def TargetShape (entries : List (String × Json)) : Prop :=
  HasText "table" entries ∧ HasText "column" entries

/-- The entries of a column. -/
structure ColumnShape (entries : List (String × Json)) : Prop where
  name : HasText "name" entries
  type : Json.find? "type" entries = none ∨ HasText "type" entries
  foreignKey : Json.find? "foreignKey" entries = none ∨
    ∃ v, Json.find? "foreignKey" entries = some v ∧ (v.isTruthy = false ∨ IsObject TargetShape v)

/-- The entries of a table. -/
structure TableShape (entries : List (String × Json)) : Prop where
  name : HasText "name" entries
  columns : Json.find? "columns" entries = none ∨
    ∃ values, Json.find? "columns" entries = some (.arr values) ∧
      ∀ v ∈ values, IsObject ColumnShape v

/-- **The shape of a declarative document.** -/
def WellShaped (document : Json) : Prop :=
  IsObject (fun entries => ∃ values, Json.find? "tables" entries = some (.arr values) ∧
    ∀ v ∈ values, IsObject TableShape v) document

/-! ### Meanings -/

/-- The column that entries declare. -/
structure DeclaresColumn (entries : List (String × Json)) (c : Column String) : Prop where
  name : Json.find? "name" entries = some (.str c.name)
  type : (Json.find? "type" entries = none ∧ c.type = "text") ∨
    Json.find? "type" entries = some (.str c.type)
  isPrimaryKey : c.isPrimaryKey = true ↔ HasTruth "primaryKey" entries
  isNullable : c.isNullable = true ↔
    Json.find? "nullable" entries ≠ some (.bool false) ∧ c.isPrimaryKey = false
  isForeignKey : c.isForeignKey = c.references.isSome
  references : c.references.isSome = true ↔ HasTruth "foreignKey" entries
  target : ∀ r ∈ c.references, ∃ target, Json.find? "foreignKey" entries = some (.obj target) ∧
    Json.find? "table" target = some (.str r.table) ∧
    Json.find? "column" target = some (.str r.column)

/-- The table that entries declare: its columns are those of the values, in their order. -/
structure DeclaresTable (entries : List (String × Json)) (t : Table String) : Prop where
  name : Json.find? "name" entries = some (.str t.name)
  columns : (Json.find? "columns" entries = none ∧ t.columns = []) ∨
    ∃ values, Json.find? "columns" entries = some (.arr values) ∧
      List.Forall₂ (fun v c => IsObject (DeclaresColumn · c) v) values t.columns

/-- The columns with references, each with its table, in the order of the tables. -/
def referring (ts : List (Table String)) : List (Table String × Column String) :=
  ts.flatMap fun t => (t.columns.filter (·.references.isSome)).map fun c => (t, c)

/-- The relationship is the one that a column of a table stands for. -/
def Relates (p : Table String × Column String) (r : Relationship String) : Prop :=
  r.fromTable = p.1.name ∧ r.fromColumn = p.2.name ∧
    p.2.references = some ⟨r.toTable, r.toColumn⟩

/-- **The schema is the one that the document declares:** its tables are those of the values, in their
order, and its relationships are those of the columns with references. -/
structure Declares (document : Json) (s : Schema String) : Prop where
  tables : IsObject (fun entries => ∃ values, Json.find? "tables" entries = some (.arr values) ∧
    List.Forall₂ (fun v t => IsObject (DeclaresTable · t) v) values s.tables) document
  relationships : List.Forall₂ Relates (referring s.tables) s.relationships

/-! ### Entries -/

section

variable {key : String} {entries : List (String × Json)}

theorem field_eq {v : Json} (hv : v ≠ .null) :
    field key entries = v ↔ Json.find? key entries = some v := by
  unfold field
  cases Json.find? key entries with
  | none => simp [hv.symm]
  | some w => simp

theorem field_eq_str {s : String} :
    field key entries = .str s ↔ Json.find? key entries = some (.str s) := field_eq (by simp)

theorem isTruthy_field : (field key entries).isTruthy = true ↔ HasTruth key entries := by
  unfold field HasTruth
  cases h : Json.find? key entries with
  | none => simp [Json.isTruthy]
  | some v => simp

theorem isNullable_iff :
    isNullable entries = true ↔ Json.find? "nullable" entries ≠ some (.bool false) := by
  unfold isNullable field
  cases Json.find? "nullable" entries with
  | none => simp
  | some v =>
    simp only [Option.getD_some, ne_eq, Option.some.injEq]
    split
    · simp
    · simpa using ‹_›

theorem isObject_obj {P : List (String × Json) → Prop} : IsObject P (.obj entries) ↔ P entries := by
  simp [IsObject]

end

/-! ### Columns -/

section

variable {table name : String} {entries : List (String × Json)} {v : Json}

theorem type_eq_ok {s : String} : type table name entries = .ok s ↔
    (Json.find? "type" entries = none ∧ s = "text") ∨
      Json.find? "type" entries = some (.str s) := by
  unfold type
  split
  · rename_i h; simp [h, eq_comm]
  · rename_i h; simp [h]
  · rename_i hne h
    simp only [h, reduceCtorEq, false_and, Option.some.injEq, false_or, false_iff]
    exact hne s

/-- A value that counts as true is a foreign key if it is an object with a table and a column. -/
theorem reference_eq_ok {r : Option (Reference String)} : reference table name v = .ok r ↔
    (v.isTruthy = false ∧ r = none) ∨
      v.isTruthy = true ∧ ∃ target t c, v = .obj target ∧
        Json.find? "table" target = some (.str t) ∧ Json.find? "column" target = some (.str c) ∧
        r = some ⟨t, c⟩ := by
  unfold reference
  split
  · rename_i ht
    simp only [ht, true_and, Bool.true_eq_false, false_and, false_or]
    split
    · rename_i target
      split
      · rename_i t c h1 h2
        rw [field_eq_str] at h1 h2
        simp [h1, h2, eq_comm]
      · rename_i hne
        simp only [reduceCtorEq, Json.obj.injEq, false_iff, not_exists, not_and]
        rintro _ t c rfl h1 h2
        exact absurd (field_eq_str.2 h2) (hne t c (field_eq_str.2 h1))
    · rename_i hne
      simp only [reduceCtorEq, false_iff, not_exists, not_and]
      exact fun target _ _ h => absurd h (hne target)
  · rename_i hf
    simp [hf, eq_comm]

/-- The foreign key of a column as it is read from its entries. -/
theorem reference_field_eq_ok {r : Option (Reference String)} :
    reference table name (field "foreignKey" entries) = .ok r ↔
      (r.isSome = true ↔ HasTruth "foreignKey" entries) ∧
        ∀ r' ∈ r, ∃ target, Json.find? "foreignKey" entries = some (.obj target) ∧
          Json.find? "table" target = some (.str r'.table) ∧
          Json.find? "column" target = some (.str r'.column) := by
  rw [reference_eq_ok, ← isTruthy_field]
  constructor
  · rintro (⟨hf, rfl⟩ | ⟨ht, target, t, c, hv, h1, h2, rfl⟩)
    · simp [hf]
    · rw [field_eq (by simp)] at hv
      simpa [ht] using ⟨target, hv, h1, h2⟩
  · rintro ⟨hr, htarget⟩
    cases r with
    | none => exact .inl ⟨by simpa using hr, rfl⟩
    | some r =>
      obtain ⟨target, hv, h1, h2⟩ := htarget r rfl
      exact .inr ⟨hr.1 rfl, target, _, _, (field_eq (by simp)).2 hv, h1, h2, rfl⟩

/-- A column is declared if it is made of what the entries give for its parts. -/
theorem declaresColumn_iff (table : String) {c : Column String} : DeclaresColumn entries c ↔
    ∃ name type r, Json.find? "name" entries = some (.str name) ∧
      Declaration.type table name entries = .ok type ∧
      reference table name (field "foreignKey" entries) = .ok r ∧
      Column.make name type (field "primaryKey" entries).isTruthy false (isNullable entries) r = c := by
  constructor
  · intro h
    refine ⟨c.name, c.type, c.references, h.name, type_eq_ok.2 h.type,
      reference_field_eq_ok.2 ⟨h.references, h.target⟩, ?_⟩
    have hp : (field "primaryKey" entries).isTruthy = c.isPrimaryKey :=
      Bool.eq_iff_iff.2 (isTruthy_field.trans h.isPrimaryKey.symm)
    have hn : (isNullable entries && !c.isPrimaryKey) = c.isNullable :=
      Bool.eq_iff_iff.2 (by rw [h.isNullable, Bool.and_eq_true, isNullable_iff, Bool.not_eq_true'])
    rw [hp, Column.make, hn, Bool.false_or, ← h.isForeignKey]
  · rintro ⟨name, type, r, hname, htype, href, rfl⟩
    obtain ⟨hr, htarget⟩ := reference_field_eq_ok.1 href
    exact
      { name := hname
        type := type_eq_ok.1 htype
        isPrimaryKey := isTruthy_field
        isNullable := by
          simp only [Column.make, Bool.and_eq_true, isNullable_iff, Bool.not_eq_true']
        isForeignKey := rfl
        references := hr
        target := htarget }

/-- The column that a value is read as is the one that its entries declare. -/
theorem column_eq_ok {c : Column String} :
    column table v = .ok c ↔ IsObject (DeclaresColumn · c) v := by
  unfold column
  split
  · rename_i entries
    rw [isObject_obj, declaresColumn_iff table]
    split
    · rename_i name hn
      rw [field_eq_str] at hn
      simp only [Outcome.bind_eq_ok, hn, Option.some.injEq, Json.str.injEq, Outcome.pure_eq,
        Except.ok.injEq]
      constructor
      · rintro ⟨r, hr, s, hs, h⟩
        exact ⟨name, s, r, rfl, hs, hr, h⟩
      · rintro ⟨_, s, r, rfl, hs, hr, h⟩
        exact ⟨r, hr, s, hs, h⟩
    · rename_i hne
      exact ⟨nofun, fun ⟨_, _, _, h, _⟩ => absurd (field_eq_str.2 h) (hne _)⟩
  · rename_i hne
    exact ⟨nofun, fun ⟨entries, h, _⟩ => absurd h (hne entries)⟩

/-- Entries declare a column if they have the shape of one. -/
theorem exists_declaresColumn : (∃ c, DeclaresColumn entries c) ↔ ColumnShape entries := by
  constructor
  · rintro ⟨c, h⟩
    refine ⟨⟨_, h.name⟩, ?_, ?_⟩
    · rcases h.type with ⟨ht, -⟩ | ht
      · exact .inl ht
      · exact .inr ⟨_, ht⟩
    · cases hf : Json.find? "foreignKey" entries with
      | none => exact .inl rfl
      | some v =>
        refine .inr ⟨v, rfl, ?_⟩
        cases hv : v.isTruthy with
        | false => exact .inl rfl
        | true =>
          obtain ⟨r, hr⟩ := Option.isSome_iff_exists.1 (h.references.2 ⟨v, hf, hv⟩)
          obtain ⟨target, ht, h1, h2⟩ := h.target r hr
          rw [hf] at ht
          cases ht
          exact .inr (isObject_obj.2 ⟨⟨_, h1⟩, ⟨_, h2⟩⟩)
  · rintro ⟨⟨name, hname⟩, htype, hforeign⟩
    have ht : ∃ s, type "" name entries = .ok s := by
      rcases htype with ht | ⟨s, ht⟩
      · exact ⟨_, type_eq_ok.2 (.inl ⟨ht, rfl⟩)⟩
      · exact ⟨s, type_eq_ok.2 (.inr ht)⟩
    have hr : ∃ r, reference "" name (field "foreignKey" entries) = .ok r := by
      rcases hforeign with hf | ⟨v, hf, hv⟩
      · exact ⟨none, reference_eq_ok.2 (.inl ⟨by rw [field, hf]; rfl, rfl⟩)⟩
      · have hfield : field "foreignKey" entries = v := by rw [field, hf]; rfl
        rw [hfield]
        cases htrue : v.isTruthy with
        | false => exact ⟨none, reference_eq_ok.2 (.inl ⟨htrue, rfl⟩)⟩
        | true =>
          obtain ⟨target, rfl, ⟨t, h1⟩, ⟨c, h2⟩⟩ := hv.resolve_left (by simp [htrue])
          exact ⟨_, reference_eq_ok.2 (.inr ⟨htrue, target, t, c, rfl, h1, h2, rfl⟩)⟩
    obtain ⟨s, hs⟩ := ht
    obtain ⟨r, hr⟩ := hr
    exact ⟨_, (declaresColumn_iff "").2 ⟨name, s, r, hname, hs, hr, rfl⟩⟩

end

/-! ### Lists -/

section

variable {α β : Type} {R : α → β → Prop}

/-- A list has a counterpart if all its items have one. -/
theorem exists_forall₂ {xs : List α} : (∃ ys, List.Forall₂ R xs ys) ↔ ∀ x ∈ xs, ∃ y, R x y := by
  induction xs with
  | nil => exact ⟨fun _ => by simp, fun _ => ⟨[], .nil⟩⟩
  | cons x xs ih =>
    rw [List.forall_mem_cons, ← ih]
    constructor
    · rintro ⟨_, h⟩
      obtain ⟨y, ys, hy, hys, -⟩ := List.forall₂_cons_left_iff.1 h
      exact ⟨⟨y, hy⟩, ys, hys⟩
    · rintro ⟨⟨y, hy⟩, ys, hys⟩
      exact ⟨y :: ys, .cons hy hys⟩

theorem exists_isObject {P : List (String × Json) → α → Prop} {Q : List (String × Json) → Prop}
    (h : ∀ entries, (∃ a, P entries a) ↔ Q entries) (v : Json) :
    (∃ a, IsObject (P · a) v) ↔ IsObject Q v := by
  constructor
  · rintro ⟨a, entries, rfl, ha⟩
    exact isObject_obj.2 ((h entries).1 ⟨a, ha⟩)
  · rintro ⟨entries, rfl, hq⟩
    obtain ⟨a, ha⟩ := (h entries).2 hq
    exact ⟨a, isObject_obj.2 ha⟩

/-- A list of objects declares something if every one of them has its shape. -/
theorem exists_forall₂_isObject {P : List (String × Json) → α → Prop}
    {Q : List (String × Json) → Prop} (h : ∀ entries, (∃ a, P entries a) ↔ Q entries)
    (values : List Json) :
    (∃ as, List.Forall₂ (fun v a => IsObject (P · a) v) values as) ↔
      ∀ v ∈ values, IsObject Q v := by
  rw [exists_forall₂]
  exact forall₂_congr fun v _ => exists_isObject h v

end

/-! ### Tables -/

section

variable {entries : List (String × Json)} {v : Json}

theorem columnValues_eq_ok {table : String} {values : List Json} :
    columnValues table entries = .ok values ↔
      (Json.find? "columns" entries = none ∧ values = []) ∨
        Json.find? "columns" entries = some (.arr values) := by
  unfold columnValues
  split
  · rename_i h; simp [h, eq_comm]
  · rename_i h; simp [h]
  · rename_i hne h
    simp only [h, reduceCtorEq, false_and, Option.some.injEq, false_or, false_iff]
    exact hne values

/-- The table that a value is read as is the one that its entries declare. -/
theorem table_eq_ok {place : ℕ} {t : Table String} :
    table place v = .ok t ↔ IsObject (DeclaresTable · t) v := by
  unfold table
  split
  · rename_i entries
    rw [isObject_obj]
    split
    · rename_i name hn
      rw [field_eq_str] at hn
      simp only [Outcome.bind_eq_ok, columnValues_eq_ok, Outcome.mapM_eq_ok, column_eq_ok,
        Outcome.pure_eq, Except.ok.injEq]
      constructor
      · rintro ⟨values, hv, columns, hc, rfl⟩
        refine ⟨hn, ?_⟩
        rcases hv with ⟨hv, rfl⟩ | hv
        · exact .inl ⟨hv, List.forall₂_nil_left_iff.1 hc⟩
        · exact .inr ⟨values, hv, hc⟩
      · rintro ⟨hname, hcolumns⟩
        rw [hn] at hname
        cases hname
        rcases hcolumns with ⟨hv, hc⟩ | ⟨values, hv, hc⟩
        · exact ⟨[], .inl ⟨hv, rfl⟩, t.columns, hc ▸ .nil, rfl⟩
        · exact ⟨values, .inr hv, t.columns, hc, rfl⟩
    · rename_i hne
      exact ⟨nofun, fun h => absurd (field_eq_str.2 h.name) (hne _)⟩
  · rename_i hne
    exact ⟨nofun, fun ⟨entries, h, _⟩ => absurd h (hne entries)⟩

theorem exists_declaresTable : (∃ t, DeclaresTable entries t) ↔ TableShape entries := by
  have hlist := exists_forall₂_isObject (P := DeclaresColumn) (Q := ColumnShape)
    fun _ => exists_declaresColumn
  constructor
  · rintro ⟨t, hname, hcolumns⟩
    refine ⟨⟨_, hname⟩, ?_⟩
    rcases hcolumns with ⟨hv, -⟩ | ⟨values, hv, hc⟩
    · exact .inl hv
    · exact .inr ⟨values, hv, (hlist values).1 ⟨_, hc⟩⟩
  · rintro ⟨⟨name, hname⟩, hcolumns⟩
    rcases hcolumns with hv | ⟨values, hv, hc⟩
    · exact ⟨⟨name, []⟩, hname, .inl ⟨hv, rfl⟩⟩
    · obtain ⟨columns, hc⟩ := (hlist values).2 hc
      exact ⟨⟨name, columns⟩, hname, .inr ⟨values, hv, hc⟩⟩

theorem tablesFrom_eq_ok {place : ℕ} {values : List Json} {ts : List (Table String)} :
    tablesFrom place values = .ok ts ↔
      List.Forall₂ (fun v t => IsObject (DeclaresTable · t) v) values ts := by
  induction values generalizing place ts with
  | nil => simp [tablesFrom, List.forall₂_nil_left_iff, eq_comm]
  | cons v rest ih =>
    rw [tablesFrom, List.forall₂_cons_left_iff]
    simp only [Outcome.bind_eq_ok, table_eq_ok, ih, Outcome.pure_eq, Except.ok.injEq]
    constructor
    · rintro ⟨t, ht, ts', hts, rfl⟩
      exact ⟨t, ts', ht, hts, rfl⟩
    · rintro ⟨t, ts', ht, hts, rfl⟩
      exact ⟨t, ht, ts', hts, rfl⟩

end

/-! ### Relationships -/

/-- The relationships of a table are those of its columns with references. -/
theorem relates_relationshipsOf (t : Table String) :
    List.Forall₂ Relates ((t.columns.filter (·.references.isSome)).map fun c => (t, c))
      (relationshipsOf t) := by
  rw [relationshipsOf]
  induction t.columns with
  | nil => exact .nil
  | cons c cs ih =>
    cases hr : c.references with
    | none => simpa [hr, Column.relationship?] using ih
    | some r => simpa [hr, Column.relationship?, Relates] using ih

theorem relates_flatMap (ts : List (Table String)) :
    List.Forall₂ Relates (referring ts) (ts.flatMap relationshipsOf) := by
  rw [referring]
  induction ts with
  | nil => exact .nil
  | cons t ts ih =>
    rw [List.flatMap_cons, List.flatMap_cons]
    exact List.rel_append (relates_relationshipsOf t) ih

/-! ### Documents -/

/-- A document is read as the schema that it declares. -/
theorem declares_of_ofDocument {document : Json} {s : Schema String}
    (h : ofDocument document = .ok s) : Declares document s := by
  unfold ofDocument at h
  split at h
  · split at h
    · rename_i entries _ values hv
      cases hd : declared values with
      | error m => rw [hd] at h; cases h
      | ok s' =>
        rw [hd] at h
        cases h
        obtain ⟨ts, hts, hs⟩ := Outcome.bind_eq_ok.1 hd
        cases hs
        exact ⟨isObject_obj.2 ⟨values, hv, tablesFrom_eq_ok.1 hts⟩, relates_flatMap ts⟩
    · cases h
  · cases h

/-- A document is accepted if it has the shape. -/
theorem exists_ofDocument {document : Json} :
    (∃ s, ofDocument document = .ok s) ↔ WellShaped document := by
  have hlist := exists_forall₂_isObject (P := DeclaresTable) (Q := TableShape)
    fun _ => exists_declaresTable
  constructor
  · rintro ⟨s, h⟩
    obtain ⟨entries, rfl, values, hv, hts⟩ := (declares_of_ofDocument h).tables
    exact isObject_obj.2 ⟨values, hv, (hlist values).1 ⟨_, hts⟩⟩
  · rintro ⟨entries, rfl, values, hv, hts⟩
    obtain ⟨ts, hts⟩ := (hlist values).2 hts
    have hd : declared values = .ok ⟨ts, ts.flatMap relationshipsOf⟩ := by
      rw [declared, tablesFrom_eq_ok.2 hts]; rfl
    exact ⟨_, by simp only [ofDocument, hv, hd]; rfl⟩

/-! ### Texts -/

/-- The schema that is extracted from a text, without tables if there is none. -/
def schemaOf (text : String) : Schema String := (extract text).1.toOption.getD .empty

/-- The error that is reported for a text, the empty text if there is none. -/
def errorOf (text : String) : String :=
  match (extract text).1 with
  | .ok _ => ""
  | .error d => d.message

theorem message_ne (d : Defect) : d.message ≠ "" := by
  -- every wording begins with words of its own
  cases d with
  | unreadable reason => exact (by simp : "JSON parse error: " ++ reason ≠ "")
  | noTables => exact (by decide : "Invalid JSON: missing tables array" ≠ "")
  | misfit m => exact (by simp : "Invalid JSON: " ++ m.message ≠ "")

/-- A text is read as a document, or its error says why it is none. -/
theorem extractFrom_fst (text : String) (depth : ℕ) :
    (∃ document, Json.read text depth = .ok document ∧
      (extractFrom (.str text) depth).1 = ofDocument document) ∨
      (∃ f, Json.read text depth = .error f) ∧ ∃ d, (extractFrom (.str text) depth).1 = .error d := by
  cases hr : Json.read text depth with
  | ok document =>
    exact .inl ⟨document, rfl, by simp only [extractFrom, Json.readValue, hr]; rfl⟩
  | error f =>
    exact .inr ⟨⟨f, rfl⟩, by simp only [extractFrom, Json.readValue, hr]; exact ⟨_, rfl⟩⟩

theorem of_extract_error {text : String} {d : Defect} (h : (extract text).1 = .error d) :
    errorOf text ≠ "" ∧ schemaOf text = .empty := by
  rw [errorOf, schemaOf, h]
  exact ⟨message_ne d, rfl⟩

theorem of_extract_ok {text : String} {s : Schema String} (h : (extract text).1 = .ok s) :
    errorOf text = "" ∧ schemaOf text = s := by
  rw [errorOf, schemaOf, h]
  exact ⟨rfl, rfl⟩

/-- **The texts of well-shaped documents are accepted, with the schema that they declare; any other text
is refused as a whole, with an error.** -/
theorem extract_wellShaped (text : String) :
    (errorOf text = "" ↔ ∃ document, Json.read text = .ok document ∧ WellShaped document) ∧
      (∀ document, Json.read text = .ok document → WellShaped document →
        Declares document (schemaOf text)) ∧
      (errorOf text ≠ "" → schemaOf text = .empty) := by
  rcases extractFrom_fst text Json.depthLimit with ⟨document, hread, hext⟩ | ⟨⟨f, hread⟩, d, herr⟩
  · rw [hread]
    simp only [Except.ok.injEq, exists_eq_left', forall_eq']
    cases hd : ofDocument document with
    | ok s =>
      obtain ⟨herror, hschema⟩ := of_extract_ok (hext.trans hd)
      exact ⟨iff_of_true herror (exists_ofDocument.1 ⟨s, hd⟩),
        fun _ => hschema ▸ declares_of_ofDocument hd, fun h => absurd herror h⟩
    | error d =>
      obtain ⟨herror, hschema⟩ := of_extract_error (hext.trans hd)
      have hshape : ¬ WellShaped document := by
        rw [← exists_ofDocument, hd]
        simp
      exact ⟨iff_of_false herror hshape, fun h => absurd h hshape, fun _ => hschema⟩
  · obtain ⟨herror, hschema⟩ := of_extract_error herr
    rw [hread]
    exact ⟨iff_of_false herror (by simp), by simp, fun _ => hschema⟩

end ErCanvas.Declaration
