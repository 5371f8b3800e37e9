import ErCanvas.Proofs.Diagram.NormalForm
import ErCanvas.Proofs.Store.Session

/-! # Columns and their flags

A column is made from values or from a document form, and is then marked as part of the primary key or
as a foreign key, in any order and any number of times. It is never both part of the primary key and
nullable; and it is a foreign key exactly if it has references, unless it was made as one that has
nothing to refer to. The same holds of the columns of imported diagrams.

* `Made`, `Flagged`: the column that a source makes, and the sources that make a foreign key by name.
* `Mark`, `makeMarked`: the calls that mark a column, and a column that is made and marked.
* `Agrees`: the flags of a column agree with its references and with each other.
* `columns_agree`: they agree in every column, however it is made and marked. -/

namespace ErCanvas

namespace Store

/-! ### Sources and marks -/

/-- The source makes the column. -/
inductive Made : Source → ColumnObject → Prop where
  | column {name type p f n r : Json} {c : ColumnObject}
      (h : ColumnObject.make name type p f n r = .ok c) : Made (.column name type p f n r) c
  | form {v : Json} {c : Column Json} (h : Column.ofJson v = .ok c) :
      Made (.columnForm v) (.ofColumn c)

/-- The source makes a foreign key whether or not there is something to refer to: it says so, or it gives
references that count as none. -/
def Flagged : Source → Prop
  | .column _ _ _ isForeignKey _ references =>
    isForeignKey.isTruthy = true ∨ references ≠ .null ∧ references.isTruthy = false
  | .columnForm v => ∃ w, v.entry "isForeignKey" = .ok w ∧ w.isTruthy = true
  | _ => False

/-- A call that marks a column. -/
inductive Mark where
  | primaryKey
  | foreignKey (table column : String)

namespace Mark

/-- What the call makes of a column. -/
def apply (c : ColumnObject) : Mark → ColumnObject
  | primaryKey => c.markPrimaryKey
  | foreignKey table column => c.markForeignKey (.str table) (.str column)

/-- The call on the object at a place. -/
def call (r : Ref) : Mark → Change Unit
  | primaryKey => Change.markPrimaryKey r
  | foreignKey table column => Change.markForeignKey (.str table) (.str column) r

end Mark

/-- Makes an object and then the calls on it, one after the other. -/
def makeMarked (names : List (String × Ref)) (source : Source) (marks : List Mark) :
    Change Ref := do
  let r ← Session.build names source
  marks.forM (Mark.call r)
  return r

/-! ### Flags -/

/-- The flags of the column and its references agree. A column that is `flagged` is a foreign key even
without references. -/
structure Agrees (flagged : Prop) (c : ColumnObject) : Prop where
  foreignKey : c.isForeignKey.isTruthy = true ↔ c.references.isTruthy = true ∨ flagged
  notNullable : ¬ (c.isPrimaryKey.isTruthy = true ∧ c.isNullable.isTruthy = true)

section

variable {flagged : Prop} {c : ColumnObject}

theorem Agrees.apply (h : Agrees flagged c) (m : Mark) : Agrees flagged (m.apply c) := by
  cases m with
  | primaryKey => exact ⟨h.foreignKey, fun hn => nomatch hn.2⟩
  | foreignKey table column => exact ⟨iff_of_true rfl (.inl rfl), h.notNullable⟩

theorem Agrees.foldl (h : Agrees flagged c) (marks : List Mark) :
    Agrees flagged (marks.foldl Mark.apply c) :=
  List.foldlRecOn _ _ h fun _ hc m _ => hc.apply m

end

/-- A value that counts as true has members. -/
theorem isTruthy_of_members {v : Json} {ms : List Json} (hv : v.isTruthy = true)
    (h : v.members = .ok ms) : (Json.arr ms).isTruthy = true := by
  cases v with
  | arr items => cases h; exact hv
  | str s =>
    cases h
    have hs : s.toList ≠ [] := by simpa [Json.isTruthy] using hv
    simpa [Json.isTruthy] using hs
  | obj entries => cases h; simpa [Json.isTruthy] using hv
  | _ => cases h

/-- References are kept as a sequence of their members, or not at all. -/
theorem isTruthy_pair {r pair : Json}
    (h : (if r.isTruthy = true then r.members.map Json.arr else .ok .null) = .ok pair) :
    pair.isTruthy = r.isTruthy := by
  split at h
  · rename_i hr
    cases hm : r.members with
    | error e => rw [hm] at h; cases h
    | ok ms =>
      rw [hm] at h
      cases h
      exact (isTruthy_of_members hr hm).trans hr.symm
  · rename_i hr
    cases h
    exact (Bool.eq_false_iff.2 hr).symm

/-- A flag that is given counts as it is; else the default counts. -/
theorem isTruthy_flag (f : Json) (b : Bool) :
    (if f.isTruthy = true then f else .bool b).isTruthy = true ↔ f.isTruthy = true ∨ b = true := by
  split
  · rename_i hf; exact iff_of_true hf (.inl hf)
  · rename_i hf; exact ⟨.inr, fun h => h.resolve_left hf⟩

/-- What a new column is made of. -/
theorem exists_of_make {name type p f n r : Json} {c : ColumnObject}
    (h : ColumnObject.make name type p f n r = .ok c) : ∃ pair given,
      (if r.isTruthy = true then r.members.map Json.arr else .ok .null) = .ok pair ∧
      (given = true ↔ r ≠ .null) ∧
      c = ⟨name, type, p, if f.isTruthy = true then f else .bool given,
        if n.isTruthy = true then .bool !p.isTruthy else n, pair, false⟩ := by
  unfold ColumnObject.make at h
  dsimp only at h
  split at h
  · rename_i hr
    obtain ⟨pair, hpair, h⟩ := Outcome.bind_eq_ok.1 h
    cases h
    exact ⟨pair, _, (if_pos hr).trans hpair, by cases r <;> simp, rfl⟩
  · rename_i hr
    cases h
    exact ⟨.null, _, if_neg hr, by cases r <;> simp, rfl⟩

/-- A new column is a foreign key if it is said to be one or is given references of any kind. -/
theorem of_make {name type p f n r : Json} {c : ColumnObject}
    (h : ColumnObject.make name type p f n r = .ok c) :
    c.isFrozen = false ∧ c.references.isTruthy = r.isTruthy ∧
      (c.isForeignKey.isTruthy = true ↔ f.isTruthy = true ∨ r ≠ .null) ∧
      ¬ (c.isPrimaryKey.isTruthy = true ∧ c.isNullable.isTruthy = true) := by
  obtain ⟨pair, given, hpair, hgiven, rfl⟩ := exists_of_make h
  refine ⟨rfl, isTruthy_pair hpair, ?_, ?_⟩
  · rw [isTruthy_flag, hgiven]
  · rintro ⟨hp, hn⟩
    dsimp only at hp hn
    split at hn
    · rw [hp] at hn; cases hn
    · contradiction

theorem agrees_make {name type p f n r : Json} {c : ColumnObject}
    (h : ColumnObject.make name type p f n r = .ok c) :
    Agrees (Flagged (.column name type p f n r)) c := by
  obtain ⟨-, hr, hf, hn⟩ := of_make h
  refine ⟨?_, hn⟩
  rw [hf, hr, Flagged]
  constructor
  · rintro (h | h)
    · exact .inr (.inl h)
    · cases hr : r.isTruthy with
      | false => exact .inr (.inr ⟨h, rfl⟩)
      | true => exact .inl rfl
  · rintro (h | h | h)
    · exact .inr fun h0 => by rw [h0] at h; cases h
    · exact .inl h
    · exact .inr h.1

/-- The references of a stored column are there if the column has references. -/
theorem isTruthy_references (c : Column Json) :
    (ColumnObject.ofColumn c).references.isTruthy = c.references.isSome := by
  rcases c with ⟨_, _, _, _, _, _ | r⟩ <;> rfl

/-- An entry that may be left out counts as true if it is there and counts as true. -/
theorem isTruthy_entryD {key : String} {v w default : Json} (hd : default.isTruthy = false)
    (h : v.entryD key default = .ok w) :
    w.isTruthy = true ↔ ∃ u, v.entry key = .ok u ∧ u.isTruthy = true := by
  rcases Json.entryD_eq_ok h with h | ⟨rfl, f, h⟩
  · simp [h]
  · simp [h, hd]

/-- A column of a document is a foreign key if its form says so or has references. -/
theorem isForeignKey_ofJson {v : Json} {c : Column Json} (h : Column.ofJson v = .ok c) :
    ∃ w, v.entryD "isForeignKey" (.bool false) = .ok w ∧
      c.isForeignKey = (w.isTruthy || c.references.isSome) := by
  unfold Column.ofJson at h
  obtain ⟨_, -, h⟩ := Outcome.bind_eq_ok.1 h
  obtain ⟨references, -, h⟩ := Outcome.bind_eq_ok.1 h
  obtain ⟨name, -, h⟩ := Outcome.bind_eq_ok.1 h
  obtain ⟨type, -, h⟩ := Outcome.bind_eq_ok.1 h
  obtain ⟨isPrimaryKey, -, h⟩ := Outcome.bind_eq_ok.1 h
  obtain ⟨isForeignKey, hf, h⟩ := Outcome.bind_eq_ok.1 h
  obtain ⟨isNullable, -, h⟩ := Outcome.bind_eq_ok.1 h
  cases h
  exact ⟨isForeignKey, hf, rfl⟩

theorem agrees_form {v : Json} {c : Column Json} (h : Column.ofJson v = .ok c) :
    Agrees (Flagged (.columnForm v)) (.ofColumn c) := by
  obtain ⟨w, hw, hc⟩ := isForeignKey_ofJson h
  constructor
  · rw [Flagged, ← isTruthy_entryD rfl hw, isTruthy_references, or_comm, ← Bool.or_eq_true, ← hc]
    rfl
  · rintro ⟨hp, hn⟩
    have hn : c.isNullable = true := hn
    rw [(Column.ofJson_normal h).notNullable hp] at hn
    cases hn

/-- The flags of a new column agree. -/
theorem Made.agrees {source : Source} {c : ColumnObject} (h : Made source c) :
    Agrees (Flagged source) c := by
  cases h with
  | column h => exact agrees_make h
  | form h => exact agrees_form h

theorem Made.isFrozen {source : Source} {c : ColumnObject} (h : Made source c) :
    c.isFrozen = false := by
  cases h with
  | column h => exact (of_make h).1
  | form h => rfl

/-! ### Calls -/

/-- At the place stands a column that is not frozen, and nothing hides its operations. -/
structure Open (s : Store) (r : Ref) (c : ColumnObject) : Prop where
  inside : r < s.cells.length
  cell : s.cell r = .column c
  isFrozen : c.isFrozen = false
  hidden : (s.added r).hidden = []

section

variable {s : Store} {r : Ref} {c : ColumnObject}

theorem isFrozen_apply (m : Mark) : (m.apply c).isFrozen = c.isFrozen := by cases m <;> rfl

theorem Open.write (h : Open s r c) (m : Mark) :
    Open (s.write r (.column (m.apply c))) r (m.apply c) where
  inside := by simpa [Store.write] using h.inside
  cell := by simp [Store.write, Store.cell, h.inside]
  isFrozen := (isFrozen_apply m).trans h.isFrozen
  hidden := h.hidden

/-- A change of an open column is made. -/
theorem Open.run_changeColumn (h : Open s r c) (o : Operation)
    (change : ColumnObject → ColumnObject) :
    (Change.changeColumn o change r).run s = (.ok (), s.write r (.column (change c))) := by
  have hask : (Change.ask r o).run s = (.ok (), s) := by
    rw [Change.run_ask, Store.ask, h.hidden]; rfl
  have hread : (Change.read r).run s = (.ok (s.cell r), s) := rfl
  have hfrozen : (Cell.column c).frozenFault? = none := by simp [Cell.frozenFault?, h.isFrozen]
  rw [Change.changeColumn, Change.run_bind_ok hask, Change.run_bind_ok hread, h.cell]
  simp only [hfrozen]
  rfl

/-- A call on an open column succeeds, and the column stays open. -/
theorem Open.run_call (h : Open s r c) (m : Mark) :
    ∃ s', (m.call r).run s = (.ok (), s') ∧ Open s' r (m.apply c) := by
  refine ⟨_, ?_, h.write m⟩
  cases m with
  | primaryKey => exact h.run_changeColumn _ _
  | foreignKey table column => exact h.run_changeColumn _ _

/-- Any number of calls on an open column succeed. -/
theorem Open.run_calls (h : Open s r c) (marks : List Mark) :
    ∃ s', (marks.forM (Mark.call r)).run s = (.ok (), s') ∧
      Open s' r (marks.foldl Mark.apply c) := by
  induction marks generalizing s c with
  | nil => exact ⟨s, rfl, h⟩
  | cons m marks ih =>
    obtain ⟨s₁, h₁, ho⟩ := h.run_call m
    obtain ⟨s₂, h₂, ho⟩ := ih ho
    refine ⟨s₂, ?_, ho⟩
    exact (Change.run_bind_ok h₁ _).trans h₂

/-- A source that makes a column puts it at a new place. -/
theorem Made.run_build {source : Source} (h : Made source c) (names : List (String × Ref)) :
    (Session.build names source).run s = (.ok s.cells.length, (s.alloc (.column c)).2) := by
  cases h with
  | column h =>
    exact Change.run_bind_ok (by rw [Change.run_lift, h]) _
  | form h =>
    exact Change.run_bind_ok (by rw [Change.run_lift, h]) _

/-- Nothing hides the operations of a new column. -/
theorem Made.open_alloc {source : Source} (h : Made source c) (hs : s.Closed) :
    Open (s.alloc (.column c)).2 s.cells.length c where
  inside := by simp [Store.alloc]
  cell := by simp [Store.alloc, Store.cell]
  isFrozen := h.isFrozen
  hidden := congrArg Additions.hidden hs.added_length

/-- **A column that is made and marked has flags that agree.** -/
theorem Made.run_makeMarked {source : Source} (h : Made source c) (hs : s.Closed)
    (names : List (String × Ref)) (marks : List Mark) :
    ∃ s' r c', (makeMarked names source marks).run s = (.ok r, s') ∧ s'.cell r = .column c' ∧
      Agrees (Flagged source) c' := by
  obtain ⟨s', hrun, ho⟩ := (h.open_alloc hs).run_calls marks
  refine ⟨s', s.cells.length, _, ?_, ho.cell, h.agrees.foldl marks⟩
  rw [makeMarked, Change.run_bind_ok (h.run_build names), Change.run_bind_ok hrun]
  rfl

end

/-! ### Imported columns -/

/-- The document lists the form of a column in one of the tables of its schema. -/
def ColumnForm (document form : Json) : Prop :=
  ∃ schema table, document.entry "schema" = .ok schema ∧ schema.Lists "tables" table ∧
    table.Lists "columns" form

/-- Each column of an imported diagram is read from a form of its own. -/
theorem exists_columnForm {text : String} {d : Diagram}
    (h : Diagram.importFrom (.str text) = .ok (.ok d)) {t : Table Json} (ht : t ∈ d.schema.tables)
    {c : Column Json} (hc : c ∈ t.columns) : ∃ document form, Json.read text = .ok document ∧
      ColumnForm document form ∧ Column.ofJson form = .ok c := by
  obtain ⟨v, hv, hd⟩ := Diagram.exists_read_of_importFrom h
  obtain ⟨schema, hw, hs⟩ := (Diagram.readFrom_of_ofJson hd).schema
  obtain ⟨table, htable, ht⟩ := Schema.exists_form hs ht
  obtain ⟨form, hform, hc⟩ := Table.exists_form ht hc
  exact ⟨v, form, hv, ⟨schema, table, hw, htable, hform⟩, hc⟩

/-- **The flags of every column agree**, whether it is made and marked in a session or imported from a
text. -/
theorem columns_agree (steps : List Step) (marks : List Mark) (text : String) :
    (∀ source c, Made source c → ∃ store r c',
      (makeMarked (Session.empty.after steps).names source marks).run
          (Session.empty.after steps).store = (.ok r, store) ∧
        store.cell r = .column c' ∧ Agrees (Flagged source) c') ∧
    ∀ d, Diagram.importFrom (.str text) = .ok (.ok d) → ∀ t ∈ d.schema.tables, ∀ c ∈ t.columns,
      ∃ document form, Json.read text = .ok document ∧ ColumnForm document form ∧
        Column.ofJson form = .ok c ∧ Agrees (Flagged (.columnForm form)) (.ofColumn c) := by
  constructor
  · intro source c h
    exact h.run_makeMarked (Session.closed_empty.after steps).store _ marks
  · intro d h t ht c hc
    obtain ⟨document, form, hread, hform, hc⟩ := exists_columnForm h ht hc
    exact ⟨document, form, hread, hform, hc, agrees_form hc⟩

/-! ### Foreign keys by name -/

/-- A column that is a foreign key by name. -/
def pointer : Column Json := ⟨.str "a", .str "int", false, true, true, none⟩

/-- A diagram of one table with that column. -/
def pointing : Diagram where
  version := Diagram.formatVersion
  schema := ⟨[⟨"t", [pointer]⟩], []⟩
  positions := []
  zoom := Diagram.standardZoom
  pan := ⟨.int 0, .int 0⟩

theorem storable_pointing : Diagram.Storable 0 pointing := by
  have hpointer : pointer.Normal := ⟨nofun, nofun⟩
  have hzero : (Number.int 0).Regular := Nat.pow_pos (by decide)
  have hone : (Binary64.num 1).Settled := Binary64.settled_of_isExact (by decide +kernel)
  have hlegible : pointer.Legible 0 := ⟨.str _ _, .str _ _, nofun⟩
  exact { version := rfl
          normal := by simpa [pointing, Schema.Normal] using hpointer
          names := ⟨by simpa [pointing] using hlegible, nofun⟩
          distinct := List.nodup_nil
          positions := nofun
          zoom := .num _ (Number.readsBack_float hone)
          pan := ⟨.num _ hzero.readsBack, .num _ hzero.readsBack⟩ }

theorem importFrom_pointing :
    Diagram.importFrom (.str pointing.toJson.print) = .ok (.ok pointing) := by
  have hwithin : Diagram.Within pointing.zoom := ⟨1, rfl, by norm_num, by norm_num⟩
  exact storable_pointing.importFrom_toJson (by decide) rfl (Diagram.clampZoom_within hwithin)

theorem columns_agree_marked :
    (∃ store r c, (makeMarked [] (.column (.str "a") (.str "int") (.bool true) (.bool false)
        (.bool true) .null) [.foreignKey "t" "id", .primaryKey]).run Store.empty = (.ok r, store) ∧
      store.cell r = .column c ∧
      (c.isForeignKey.isTruthy = true ↔ c.references.isTruthy = true) ∧
      ¬ (c.isPrimaryKey.isTruthy = true ∧ c.isNullable.isTruthy = true)) ∧
    ∃ document form, Json.read pointing.toJson.print = .ok document ∧ ColumnForm document form ∧
      Column.ofJson form = .ok pointer ∧
      Agrees (Flagged (.columnForm form)) (.ofColumn pointer) := by
  obtain ⟨hmade, himported⟩ := columns_agree [] [.foreignKey "t" "id", .primaryKey]
    pointing.toJson.print
  obtain ⟨store, r, c, hrun, hc, ha⟩ := hmade
    (.column (.str "a") (.str "int") (.bool true) (.bool false) (.bool true) .null) _ (.column rfl)
  refine ⟨⟨store, r, c, hrun, hc, ?_, ha.notNullable⟩, ?_⟩
  · simpa [Flagged, Json.isTruthy] using ha.foreignKey
  · exact himported _ importFrom_pointing _ (.head _) _ (.head _)

/-- A column can be a foreign key without references, and can be imported as one. -/
theorem columns_agree_pointer :
    (∃ store r c, (makeMarked [] (.column (.str "a") (.str "int") (.bool false) (.bool true)
        (.bool true) .null) []).run Store.empty = (.ok r, store) ∧
      store.cell r = .column c ∧ c.isForeignKey.isTruthy = true ∧ c.references.isTruthy = false) ∧
    Diagram.importFrom (.str pointing.toJson.print) = .ok (.ok pointing) ∧
      ∃ t ∈ pointing.schema.tables, ∃ c ∈ t.columns, c.isForeignKey = true ∧ c.references = none :=
  ⟨⟨_, _, _, rfl, rfl, rfl, rfl⟩, importFrom_pointing, _, .head _, _, .head _, rfl, rfl⟩

end Store

end ErCanvas
