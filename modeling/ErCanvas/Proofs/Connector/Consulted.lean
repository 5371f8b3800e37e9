import ErCanvas.Proofs.Connector.Card

/-! # Names that are consulted

Looking for a connector puts names in lower case, one after the other: those of the tables, and if both
tables are there and have positions, those of the columns, as far as the columns are gone through. Names
may be values of any kind, and the first one that is no text is the cause of a failure.

* `Lowers`: an operation that fails at the first of its names that is no text, and at nothing else.
* `Connector.consulted`: the names of a relationship, in the order in which they are consulted.
* `Connector.lowers_of?`: looking for a connector consults them, and nothing else fails. -/

namespace ErCanvas

/-- The value is a text. -/
def Json.isText : Json → Bool
  | .str _ => true
  | _ => false

theorem Json.isText_iff {v : Json} : v.isText ↔ ∃ s, v = .str s := by
  cases v <;> simp [isText]

/-- The first of the values that is no text. -/
def nonText? (vs : List Json) : Option Json := vs.find? (!·.isText)

theorem nonText?_eq_none {vs : List Json} : nonText? vs = none ↔ ∀ v ∈ vs, v.isText := by
  simp [nonText?]

theorem nonText?_append (vs ws : List Json) : nonText? (vs ++ ws) = (nonText? vs).or (nonText? ws) :=
  List.find?_append

/-- The failure of a name that cannot be put in lower case. -/
def Json.notLowered (v : Json) : Fault := .missingMember v.kind "lower"

theorem Json.lower_of_not_isText {v : Json} (h : v.isText = false) : v.lower = .error v.notLowered := by
  cases v with
  | str => cases h
  | _ => rfl

/-! ### Operations on names -/

variable {α β : Type} {names more : List Json} {x : Outcome α} {P : α → Prop} {Q : β → Prop}

/-- The operation fails at the first name that is no text, and at nothing else; what it gives satisfies
`P`. -/
structure Lowers (names : List Json) (x : Outcome α) (P : α → Prop) : Prop where
  succeeds : (∀ v ∈ names, v.isText) → ∃ a, x = .ok a ∧ P a
  fails : ∀ v, nonText? names = some v → x = .error v.notLowered

namespace Lowers

theorem lower (v : Json) : Lowers [v] v.lower fun id => v.lower = .ok id where
  succeeds h := by
    have hv := h v (.head _)
    cases v with
    | str s => exact ⟨Text.lower s, rfl, rfl⟩
    | _ => cases hv
  fails w h := by
    have hw : w.isText = false := by simpa using List.find?_some h
    have hmem := List.mem_of_find?_eq_some h
    rw [← List.mem_singleton.1 hmem]
    exact Json.lower_of_not_isText hw

theorem of_ok {a : α} (ha : P a) : Lowers [] (.ok a) P where
  succeeds _ := ⟨a, rfl, ha⟩
  fails _ h := nomatch h

/-- The names of the second operation come behind those of the first. -/
theorem bind {f : α → Outcome β} (hx : Lowers names x P)
    (hf : ∀ a, x = .ok a → P a → Lowers more (f a) Q) : Lowers (names ++ more) (x >>= f) Q where
  succeeds h := by
    obtain ⟨hnames, hmore⟩ := List.forall_mem_append.1 h
    obtain ⟨a, rfl, ha⟩ := hx.succeeds hnames
    exact (hf a rfl ha).succeeds hmore
  fails v h := by
    rw [nonText?_append] at h
    cases hn : nonText? names with
    | some w =>
      rw [hn] at h
      cases h
      rw [hx.fails _ hn]
      rfl
    | none =>
      rw [hn, Option.none_or] at h
      obtain ⟨a, rfl, ha⟩ := hx.succeeds (nonText?_eq_none.1 hn)
      exact (hf a rfl ha).fails v h

/-- What comes behind the operation does not fail. -/
theorem before {f : α → Outcome β} (hx : Lowers names x P)
    (hf : ∀ a, x = .ok a → P a → ∃ b, f a = .ok b ∧ Q b) : Lowers names (x >>= f) Q := by
  rw [← List.append_nil names]
  refine hx.bind fun a ha hP => ?_
  obtain ⟨b, hb, hQ⟩ := hf a ha hP
  rw [hb]
  exact .of_ok hQ

end Lowers

/-! ### Columns -/

/-- The names of the columns up to the first that is `wanted` in lower case. -/
def searched (wanted : String) : List (Column Json) → List Json
  | [] => []
  | c :: cs =>
    c.name :: match c.name with
      | .str name => if Text.lower name == wanted then [] else searched wanted cs
      | _ => []

/-- The names that are consulted when a column is looked for in the table. -/
def Table.searched (t : Table Json) (name : Json) : List Json :=
  name :: match name with
    | .str name => ErCanvas.searched (Text.lower name) t.columns
    | _ => []

theorem isText_searched {wanted : String} {cs : List (Column Json)}
    (h : ∀ c ∈ cs, ∃ name, c.name = .str name) : ∀ v ∈ searched wanted cs, v.isText := by
  induction cs with
  | nil => exact nofun
  | cons c cs ih =>
    obtain ⟨⟨name, hname⟩, h⟩ := List.forall_mem_cons.1 h
    rw [searched, hname]
    refine List.forall_mem_cons.2 ⟨rfl, ?_⟩
    dsimp only
    split
    · exact nofun
    · exact ih h

theorem Table.isText_searched (t : Table Json) {wanted : Json} (hw : ∃ name, wanted = .str name)
    (h : ∀ c ∈ t.columns, ∃ name, c.name = .str name) : ∀ v ∈ t.searched wanted, v.isText := by
  obtain ⟨name, rfl⟩ := hw
  exact List.forall_mem_cons.2 ⟨rfl, ErCanvas.isText_searched h⟩

theorem lowers_columnIndexFrom (wanted : String) (i : ℕ) (cs : List (Column Json)) :
    Lowers (searched wanted cs) (columnIndexFrom wanted i cs) fun _ => True := by
  induction cs generalizing i with
  | nil => exact .of_ok trivial
  | cons c cs ih =>
    refine (Lowers.lower c.name).bind fun id hid _ => ?_
    cases hname : c.name with
    | str name =>
      rw [hname] at hid
      cases hid
      dsimp only
      split
      · exact .of_ok trivial
      · exact ih (i + 1)
    | _ =>
      rw [hname] at hid
      cases hid

theorem Table.lowers_columnIndex? (t : Table Json) (name : Json) :
    Lowers (t.searched name) (t.columnIndex? name) fun _ => True := by
  refine (Lowers.lower name).bind fun id hid _ => ?_
  cases name with
  | str name =>
    cases hid
    exact lowers_columnIndexFrom _ 0 t.columns
  | _ => cases hid

/-! ### Relationships -/

variable {s : Schema Json} {positions : Json} {ps : List (String × Place)} {r : Relationship Json}

theorem Schema.lowers_table? (s : Schema Json) (name : Json) :
    Lowers [name] (s.table? name) fun _ => True :=
  (Lowers.lower name).before fun _ _ _ => ⟨_, rfl, trivial⟩

namespace Connector

/-- The table of that name, if it is there and has a position. -/
def placed? (s : Schema Json) (positions name : Json) : Option (Table Json) :=
  match s.table? name with
  | .ok (some t) =>
    match position? positions t.id with
    | .ok (some _) => some t
    | _ => none
  | _ => none

/-- The names that are consulted when the connector of a relationship is looked for, in order. -/
def consulted (s : Schema Json) (positions : Json) (r : Relationship Json) : List Json :=
  r.fromTable :: r.toTable ::
    match placed? s positions r.fromTable, placed? s positions r.toTable with
    | some source, some target => source.searched r.fromColumn ++ target.searched r.toColumn
    | _, _ => []

section

variable {name : Json} {t : Table Json}

theorem placed?_of_none (h : s.table? name = .ok none) : placed? s positions name = none := by
  simp only [placed?, h]

theorem placed?_of_some (h : s.table? name = .ok (some t)) {v : Option Json}
    (hv : position? positions t.id = .ok v) : placed? s positions name = v.map fun _ => t := by
  cases v with
  | none => simp only [placed?, h, hv, Option.map_none]
  | some v => simp only [placed?, h, hv, Option.map_some]

end

theorem mem_of_placed? {name : Json} {t : Table Json} (h : placed? s positions name = some t) :
    t ∈ s.tables := by
  unfold placed? at h
  split at h
  · rename_i t' ht
    split at h
    · cases h
      exact mem_of_table? ht
    · cases h
  · cases h

theorem exists_position?_of_arePlaces (hps : ArePlaces positions ps) (id : String) :
    ∃ found, position? positions id = .ok found := by
  obtain ⟨-, entries, rfl, -⟩ := hps
  exact ⟨_, rfl⟩

/-- **Looking for a connector** consults names and fails at nothing else, if there is always a connector
between rows that are found. -/
theorem lowers_of? {P : Option Connector → Prop} (hps : ArePlaces positions ps) (hnone : P none)
    (hsome : ∀ source ∈ s.tables, ∀ target ∈ s.tables, ∀ v v' row row',
      position? positions source.id = .ok (some v) → position? positions target.id = .ok (some v') →
      row < source.columns.length → row' < target.columns.length →
      ∃ c, between v v' row row' = .ok c ∧ P (some c)) :
    Lowers (consulted s positions r) (of? s positions r) P := by
  refine (s.lowers_table? r.fromTable).bind fun source hsource _ => ?_
  refine (s.lowers_table? r.toTable).bind fun target htarget _ => ?_
  -- no more names are consulted unless both tables are found and have positions
  cases source with
  | none =>
    rw [placed?_of_none hsource]
    exact .of_ok hnone
  | some source =>
    cases target with
    | none =>
      rw [placed?_of_none htarget]
      cases placed? s positions r.fromTable <;> exact .of_ok hnone
    | some target =>
      obtain ⟨v, hv⟩ := exists_position?_of_arePlaces hps source.id
      obtain ⟨v', hv'⟩ := exists_position?_of_arePlaces hps target.id
      rw [placed?_of_some hsource hv, placed?_of_some htarget hv']
      simp only [hv, hv', Outcome.ok_bind]
      cases v with
      | none => exact .of_ok hnone
      | some v =>
        cases v' with
        | none => exact .of_ok hnone
        | some v' =>
          refine (source.lowers_columnIndex? r.fromColumn).bind fun row hrow _ => ?_
          refine (target.lowers_columnIndex? r.toColumn).before fun row' hrow' _ => ?_
          cases row with
          | none => exact ⟨none, rfl, hnone⟩
          | some row =>
            cases row' with
            | none => exact ⟨none, rfl, hnone⟩
            | some row' =>
              obtain ⟨c, hc, hP⟩ := hsome source (mem_of_table? hsource) target (mem_of_table? htarget)
                v v' row row' hv hv' (lt_of_columnIndex? hrow) (lt_of_columnIndex? hrow')
              exact ⟨some c, by simp only [hc, Outcome.ok_bind, Outcome.pure_eq], hP⟩

theorem isText_tables (h : ∀ v ∈ consulted s positions r, v.isText) :
    r.fromTable.isText ∧ r.toTable.isText :=
  ⟨h _ (.head _), h _ (.tail _ (.head _))⟩

end Connector

/-- The names that are consulted when the connectors of all relationships are looked for, in order. -/
def Schema.consulted (s : Schema Json) (positions : Json) : List Json :=
  s.relationships.flatMap (Connector.consulted s positions)

theorem Schema.isText_of_consulted (h : ∀ v ∈ s.consulted positions, v.isText) (hr : r ∈ s.relationships) :
    ∀ v ∈ Connector.consulted s positions r, v.isText :=
  fun v hv => h v (List.mem_flatMap_of_mem hr hv)

end ErCanvas
