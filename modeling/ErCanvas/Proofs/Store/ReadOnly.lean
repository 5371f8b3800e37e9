import ErCanvas.Proofs.Store.Column
import ErCanvas.Proofs.Store.Frozen

/-! # Tables that can only be read

A table that is frozen, by itself or as a table of a new schema, never changes again in the session,
whatever else is done with it, with its columns, and with the objects that share them. Each step that
would change it is refused and leaves the session as it is.

* `Step.IsPublic`: a step that sets no private attribute.
* `respects_after`: in a session of such steps the columns of frozen tables are frozen, and what is
  frozen stays.
* `Step.Freezes`, `Session.Alters`: the steps that freeze an object, and those that would change one.
* `frozen_table_unchanged`: a frozen table and its columns stay as they are. -/

namespace ErCanvas

/-- The fault is one of an attribute: there is none of that name, or it cannot be set. -/
def Fault.IsOfAttribute : Fault → Prop
  | missingMember .. | readOnly .. | notWritable .. => True
  | _ => False

namespace Store

/-- The step does not set the private attribute that tells whether an object is frozen. -/
def Step.IsPublic : Step → Prop
  | .assign _ field _ => field ≠ .frozen
  | _ => True

/-- The source makes a schema of which the named object is a table. -/
def Source.Joins (target : String) : Source → Prop
  | .schema tables _ => target ∈ tables
  | _ => False

/-- The step freezes the named object, by itself or as a table of a new schema. -/
def Step.Freezes (target : String) : Step → Prop
  | .freeze name => name = target
  | .make _ source => source.Joins target
  | _ => False

namespace Session

open Change

/-! ### Sessions of public steps -/

section

variable {s : Store} {names : List (String × Ref)}

/-- The tables of a new schema are frozen. -/
theorem respects_buildSchema (hs : s.Firm) (tables relationships : List String) :
    Respects s (build names (.schema tables relationships)) fun s' _ =>
      ∀ target ∈ tables, ∃ r, lookup names target = .ok r ∧ s'.Frozen r := by
  refine (respects_lift hs _).bind fun _ rs h _ hrs => ?_
  refine (respects_lift h _).bind fun _ _ h _ _ => ?_
  refine (respects_newSchema h _ _).imp fun _ _ hfrozen target ht => ?_
  have hall := (Outcome.mapM_eq_ok.1 hrs.2).flip
  obtain ⟨r, hr, hlookup⟩ := Outcome.exists_of_forall₂ hall ht
  exact ⟨r, hlookup, hfrozen r hr⟩

theorem respects_build (hs : s.Firm) (source : Source) :
    Respects s (build names source) fun _ _ => True := by
  cases source with
  | column =>
    refine (respects_lift hs _).bind fun _ c h _ hc => respects_alloc h ?_
    exact Bool.eq_false_iff.1 (of_make hc.2).1
  | table name columns =>
    exact (respects_lift hs _).bind fun _ _ h _ _ => respects_newTable h _ _
  | relationship r => exact respects_newRelationship hs r
  | schema tables relationships =>
    exact (respects_buildSchema hs tables relationships).imp fun _ _ _ => trivial
  | diagram schema =>
    exact (respects_lift hs _).bind fun _ _ h _ _ => respects_newDiagram h _ _ _ _ _
  | columnForm v =>
    exact (respects_lift hs _).bind fun _ _ h _ _ => respects_alloc h Bool.false_ne_true
  | tableForm v => exact (respects_lift hs _).bind fun _ _ h _ _ => respects_copyTable h _
  | relationshipForm v =>
    exact (respects_lift hs _).bind fun _ _ h _ _ => respects_newRelationship h _
  | schemaForm v => exact (respects_lift hs _).bind fun _ _ h _ _ => respects_copySchema h _
  | diagramForm v => exact (respects_lift hs _).bind fun _ _ h _ _ => respects_copyDiagram h _
  | rectForm v => exact (respects_lift hs _).bind fun _ _ h _ _ => respects_alloc h nofun

theorem respects_formOf (hs : s.Firm) (r : Ref) (name : Option String) :
    Respects s (formOf r name) fun s' _ => s = s' := by
  refine (respects_get hs).bind ?_
  rintro _ _ - - ⟨rfl, rfl⟩
  refine (respects_lift hs _).bind ?_
  rintro _ _ - - ⟨rfl, -⟩
  exact (respects_pure hs _).imp fun _ _ h => h.1

theorem respects_changing (hs : s.Firm) (target : String) {change : Ref → Change Unit}
    {P : Ref → Store → Prop} (hc : ∀ r, Respects s (change r) fun s' _ => P r s') :
    Respects s (changing names target change) fun s' _ =>
      ∃ r, lookup names target = .ok r ∧ P r s' := by
  refine (respects_lift hs _).bind ?_
  rintro _ r - - ⟨rfl, hr⟩
  refine (hc r).bind fun s' _ h _ hp => (respects_formOf h r none).imp ?_
  rintro _ - rfl
  exact ⟨r, hr, hp⟩

theorem respects_asking (hs : s.Firm) (target : String) (ask : Store → Ref → Outcome Json) :
    Respects s (asking names target ask) fun _ _ => True := by
  refine (respects_lift hs _).bind fun _ _ h _ _ => ?_
  refine (respects_get h).bind fun _ _ h _ _ => ?_
  refine (respects_lift h _).bind fun _ _ h _ _ => ?_
  exact (respects_pure h _).imp fun _ _ _ => trivial

theorem respects_finding (hs : s.Firm) (target : String) (name : Option String)
    (find : Store → Ref → Outcome (Option Ref)) :
    Respects s (finding names target name find) fun _ _ => True := by
  refine (respects_lift hs _).bind fun _ _ h _ _ => ?_
  refine (respects_get h).bind fun _ _ h _ _ => ?_
  refine (respects_lift h _).bind fun _ found h _ _ => ?_
  cases found with
  | none => exact (respects_pure h _).imp fun _ _ _ => trivial
  | some found => exact (respects_formOf h found name).imp fun _ _ _ => trivial

theorem respects_perform (hs : s.Firm) {o : Step} (ho : o.IsPublic) :
    Respects s (perform names o) fun _ _ => True := by
  cases o with
  | make name source =>
    exact (respects_build hs source).bind fun _ r h _ _ =>
      (respects_formOf h r name).imp fun _ _ _ => trivial
  | markPrimaryKey target =>
    exact (respects_changing hs target (respects_changeColumn hs _ _)).imp fun _ _ _ => trivial
  | markForeignKey target =>
    exact (respects_changing hs target (respects_changeColumn hs _ _)).imp fun _ _ _ => trivial
  | append target column =>
    exact (respects_changing hs target fun r => respects_append hs r _).imp fun _ _ _ => trivial
  | freeze target =>
    exact (respects_changing hs target fun r => respects_freeze hs r).imp fun _ _ _ => trivial
  | assign target field value =>
    exact (respects_changing hs target fun r => respects_assign hs r ho value).imp
      fun _ _ _ => trivial
  | column target wanted name => exact respects_finding hs target name _
  | table target wanted name => exact respects_finding hs target name _
  | columnIndex target => exact respects_asking hs target _
  | isEmpty target => exact respects_asking hs target _
  | form target => exact respects_asking hs target _
  | shown target => exact respects_asking hs target _
  | same target other => exact respects_asking hs target _

end

/-- A step is what it does to the store, and the name that it gives. -/
theorem step_store (s : Session) (o : Step) :
    (s.step o).2.store = ((perform s.names o).run s.store).2 := by
  unfold step
  split
  · rename_i h; rw [h]
  · rename_i h; rw [h]

theorem of_step_ok {s : Session} {o : Step} {P : Store → Answer → Prop}
    (h : Respects s.store (perform s.names o) P) {v : Json} (hv : (s.step o).1 = .ok v) :
    ∃ a, P (s.step o).2.store a := by
  rw [step_store]
  unfold step at hv
  split at hv
  · rename_i a store hr
    exact ⟨a, h.2.2 a (by rw [hr])⟩
  · cases hv

theorem respects_step {s : Session} (hs : s.store.Firm) {o : Step} (ho : o.IsPublic) :
    (s.step o).2.store.Firm ∧ s.store.Spares (s.step o).2.store := by
  have h : Respects s.store (perform s.names o) fun _ _ => True := respects_perform hs ho
  obtain ⟨hfirm, hspares, -⟩ := h
  rw [step_store]
  exact ⟨hfirm, hspares⟩

/-- **What is frozen is spared** in the whole rest of a session. -/
theorem respects_after {s : Session} (hs : s.store.Firm) (steps : List Step)
    (h : ∀ o ∈ steps, o.IsPublic) :
    (s.after steps).store.Firm ∧ s.store.Spares (s.after steps).store := by
  induction steps generalizing s with
  | nil => exact ⟨hs, .refl _⟩
  | cons o steps ih =>
    obtain ⟨ho, hsteps⟩ := List.forall_mem_cons.1 h
    obtain ⟨hfirm, hspares⟩ := respects_step hs ho
    obtain ⟨hfirm', hspares'⟩ := ih hfirm hsteps
    exact ⟨hfirm', hspares.trans hspares'⟩

theorem firm_empty : empty.store.Firm := nofun

/-- **What a step freezes is frozen** if the step succeeds. -/
theorem frozen_of_freezes {s : Session} (hs : s.store.Firm) {o : Step} {target : String}
    (ho : o.Freezes target) {v : Json} (hv : (s.step o).1 = .ok v) :
    ∃ r, lookup s.names target = .ok r ∧ (s.step o).2.store.Frozen r := by
  cases o with
  | freeze name =>
    subst ho
    have h : Respects s.store (perform s.names (.freeze name)) fun s' _ =>
        ∃ r, lookup s.names name = .ok r ∧ s'.Frozen r ∧ s.store.Hardens s' :=
      respects_changing hs name fun r => respects_freeze hs r
    obtain ⟨-, r, hr, hfrozen, -⟩ := of_step_ok h hv
    exact ⟨r, hr, hfrozen⟩
  | make name source =>
    cases source with
    | schema tables relationships =>
      have h : Respects s.store (perform s.names (.make name (.schema tables relationships)))
          fun s' _ => ∀ target ∈ tables, ∃ r, lookup s.names target = .ok r ∧ s'.Frozen r :=
        (respects_buildSchema hs tables relationships).bind
          fun s' r h _ hp => (respects_formOf h r name).imp fun s'' _ heq => heq ▸ hp
      obtain ⟨-, hall⟩ := of_step_ok h hv
      exact hall target ho
    | _ => exact ho.elim
  | _ => exact ho.elim

/-! ### Steps that are refused -/

/-- The step would change the object at `x` if it were not frozen: it sets an attribute, appends to the
columns of a table, or marks a column. A mark that a value has been given the name of is not made. -/
def Alters (s : Session) (x : Ref) : Step → Prop
  | .assign target _ _ => lookup s.names target = .ok x
  | .append target _ => lookup s.names target = .ok x ∧ ∃ t, s.store.cell x = .table t
  | .markPrimaryKey target =>
    lookup s.names target = .ok x ∧ .markPrimaryKey ∉ (s.store.added x).hidden
  | .markForeignKey target _ _ =>
    lookup s.names target = .ok x ∧ .markForeignKey ∉ (s.store.added x).hidden
  | _ => False

section

variable {s : Store} {x : Ref}

/-- The change fails as one of an attribute, and leaves the store as it is. -/
def Refused {α : Type} (s : Store) (c : Change α) : Prop :=
  ∃ f : Fault, f.IsOfAttribute ∧ c.run s = (.error f, s)

theorem refused_assign (hx : s.Frozen x) (f : Field) (v : Json) : Refused s (assign x f v) := by
  obtain ⟨kind, name, hfault⟩ := Cell.exists_frozenFault? hx
  have hassign : (s.cell x).assignFault? f = some (.readOnly kind name) := by
    unfold Cell.assignFault?
    rw [hfault]
    rfl
  have hread : (read x).run s = (.ok (s.cell x), s) := rfl
  refine ⟨.readOnly kind name, trivial, ?_⟩
  rw [assign, run_bind_ok hread, hassign]
  rfl

theorem refused_changeColumn (hx : s.Frozen x) {o : Operation} (ho : o ∉ (s.added x).hidden)
    (change : ColumnObject → ColumnObject) : Refused s (changeColumn o change x) := by
  have hask : (Change.ask x o).run s = (.ok (), s) := by rw [run_ask, Store.ask, if_neg ho]
  have hread : (read x).run s = (.ok (s.cell x), s) := rfl
  obtain ⟨kind, name, hfault⟩ := Cell.exists_frozenFault? hx
  rw [Refused, changeColumn, run_bind_ok hask, run_bind_ok hread]
  cases hc : s.cell x with
  | column c =>
    rw [hc] at hfault
    refine ⟨.readOnly kind name, trivial, ?_⟩
    dsimp only
    rw [hfault]
    rfl
  | _ => exact ⟨.missingMember _ o.name, trivial, rfl⟩

theorem refused_append (hs : s.Firm) (hx : s.Frozen x) {t : TableObject}
    (ht : s.cell x = .table t) (column : Outcome Ref) : Refused s (append x column) := by
  have hfrozen : t.isFrozen = true := by rwa [Store.Frozen, ht] at hx
  obtain ⟨items, hfixed, -⟩ := hs x t ht hfrozen
  have hcolumns : s.columns x = .ok (.fixed items) := by rw [Store.columns, ht, ← hfixed]
  have hget : (get : Change Store).run s = (.ok s, s) := rfl
  refine ⟨.missingMember "tuple" "append", trivial, ?_⟩
  rw [append, run_bind_ok hget, hcolumns]
  rfl

theorem Refused.changing {names : List (String × Ref)} {target : String}
    {change : Ref → Change Unit} (hx : lookup names target = .ok x) (h : Refused s (change x)) :
    Refused s (changing names target change) := by
  obtain ⟨f, hf, hrun⟩ := h
  refine ⟨f, hf, ?_⟩
  rw [Session.changing, hx]
  exact (run_bind_ok (run_lift _) _).trans (run_bind_error hrun _)

end

/-- **Steps that would change what is frozen are refused**, and leave the session as it is. -/
theorem step_refused {s : Session} (hs : s.store.Firm) {x : Ref} (hx : s.store.Frozen x) {o : Step}
    (ho : s.Alters x o) : ∃ f : Fault, f.IsOfAttribute ∧ s.step o = (.error f, s) := by
  have hrefused : Refused s.store (perform s.names o) := by
    cases o with
    | assign target field value => exact (refused_assign hx field value).changing ho
    | append target column =>
      obtain ⟨hlookup, t, ht⟩ := ho
      exact (refused_append hs hx ht _).changing hlookup
    | markPrimaryKey target => exact (refused_changeColumn hx ho.2 _).changing ho.1
    | markForeignKey target => exact (refused_changeColumn hx ho.2 _).changing ho.1
    | _ => exact ho.elim
  obtain ⟨f, hf, hrun⟩ := hrefused
  exact ⟨f, hf, by rw [step, hrun]⟩

end Session

/-! ### The document form -/

section

variable {s s' : Store} {r : Ref} {t : TableObject} {columns : List Ref}

/-- At `r` stands a frozen table, and its columns are the columns at the places `columns`. -/
structure FrozenTable (s : Store) (r : Ref) (t : TableObject) (columns : List Ref) : Prop where
  table : s.cell r = .table t
  isFrozen : t.isFrozen = true
  items : t.columns.items = .ok (columns.map .object)
  column : ∀ c ∈ columns, ∃ d, s.cell c = .column d

/-- The columns of a frozen table are frozen. -/
theorem FrozenTable.frozen (h : FrozenTable s r t columns) (hs : s.Firm) :
    ∀ x ∈ r :: columns, s.Frozen x := by
  refine List.forall_mem_cons.2 ⟨?_, fun c hc => ?_⟩
  · rw [Frozen, h.table]
    exact h.isFrozen
  · obtain ⟨items, hfixed, hitems⟩ := hs r t h.table h.isFrozen
    have hmap : items = columns.map .object := by
      have hi := h.items
      rw [hfixed] at hi
      exact Except.ok.inj hi
    obtain ⟨c', hc', hfrozen⟩ := hitems (.object c) (hmap ▸ List.mem_map_of_mem hc)
    cases hc'
    exact hfrozen

/-- The form of a column depends on its object and on what it can be asked for. -/
theorem toJsonWithin_column {c : Ref} {d : ColumnObject} (hd : s.cell c = .column d)
    (hcell : s'.cell c = s.cell c) (hhidden : (s'.added c).hidden = (s.added c).hidden)
    (depth depth' : ℕ) :
    s'.toJsonWithin (depth' + 1) c = s.toJsonWithin (depth + 1) c := by
  rw [toJsonWithin, toJsonWithin, ask, ask, hhidden, hcell, hd]

/-- **The form of a table of columns** depends on these objects only. -/
theorem FrozenTable.toJson_eq (h : FrozenTable s r t columns) (hs : s.Firm)
    (hspares : s.Spares s') : s'.toJson r = s.toJson r := by
  obtain ⟨hr, hcolumns⟩ := List.forall_mem_cons.1 (h.frozen hs)
  have hlt {s : Store} (hr : s.Frozen r) : ∃ n, s.cells.length = n + 1 :=
    Nat.exists_eq_succ_of_ne_zero (Nat.ne_zero_of_lt (lt_of_frozen hr))
  obtain ⟨n, hn⟩ := hlt hr
  obtain ⟨n', hn'⟩ := hlt (hspares.frozen hr)
  obtain ⟨hcell, hhidden⟩ := hspares r hr
  have hforms : ∀ c ∈ columns, s'.toJsonWithin (n' + 1) c = s.toJsonWithin (n + 1) c := by
    intro c hc
    obtain ⟨d, hd⟩ := h.column c hc
    obtain ⟨hcell, hhidden⟩ := hspares c (hcolumns c hc)
    exact toJsonWithin_column hd hcell hhidden n n'
  have hmembers : t.columns.toJson (s'.toJsonWithin (n' + 1)) =
      t.columns.toJson (s.toJsonWithin (n + 1)) := by
    rw [Members.toJson, Members.toJson, h.items]
    simp only [Outcome.ok_bind, List.mapM_map, Function.comp_def]
    rw [Outcome.mapM_congr hforms]
  rw [toJson, toJson, depth, depth, hn, hn', toJsonWithin, toJsonWithin, ask, ask, hhidden, hcell,
    h.table]
  dsimp only
  rw [hmembers]

end

namespace Session

/-- **A frozen table never changes again.** In every session of public steps: what a step freezes, by
itself or as a table of a new schema, is frozen; and from then on, whatever steps follow, a frozen table
of columns and these columns are the same objects, its document form is the same, and each step that
would change one of them fails as one of an attribute and leaves the whole session as it is. -/
theorem frozen_table_unchanged (steps more : List Step) (h : ∀ o ∈ steps ++ more, o.IsPublic) :
    (∀ o target v, o.Freezes target → ((empty.after steps).step o).1 = .ok v →
      ∃ r, lookup (empty.after steps).names target = .ok r ∧
        ((empty.after steps).step o).2.store.Frozen r) ∧
    ∀ r t columns, FrozenTable (empty.after steps).store r t columns →
      (∀ x ∈ r :: columns, (empty.after (steps ++ more)).store.cell x =
        (empty.after steps).store.cell x) ∧
      (empty.after (steps ++ more)).store.toJson r = (empty.after steps).store.toJson r ∧
      ∀ x ∈ r :: columns, ∀ o, (empty.after (steps ++ more)).Alters x o →
        ∃ f : Fault, f.IsOfAttribute ∧
          (empty.after (steps ++ more)).step o = (.error f, empty.after (steps ++ more)) := by
  obtain ⟨hsteps, hmore⟩ := List.forall_mem_append.1 h
  obtain ⟨hfirm, -⟩ := respects_after firm_empty steps hsteps
  have hafter : empty.after (steps ++ more) = (empty.after steps).after more :=
    List.foldl_append
  obtain ⟨hfirm', hspares⟩ := respects_after hfirm more hmore
  rw [hafter]
  refine ⟨fun o target v ho hv => frozen_of_freezes hfirm ho hv, fun r t columns ht => ?_⟩
  have hfrozen := ht.frozen hfirm
  refine ⟨fun x hx => (hspares x (hfrozen x hx)).1, ht.toJson_eq hfirm hspares, ?_⟩
  exact fun x hx o ho => step_refused hfirm' (hspares.frozen (hfrozen x hx)) ho

/-! A column is shared by two tables, and one of them joins a schema; the other one is frozen later. -/

/-- The column `c` in the tables `t` and `u`, and a schema of `t`. -/
def sharing : List Step :=
  [.make (some "c") (.column (.str "id") (.str "int") (.bool true) (.bool false) (.bool true) .null),
    .make (some "t") (.table (.str "T") ["c"]), .make (some "u") (.table (.str "U") ["c"]),
    .make (some "s") (.schema ["t"] [])]

/-- The column is to be marked, the other table is given a name and frozen. -/
def disturbing : List Step :=
  [.markForeignKey "c" (.str "U") (.str "id"), .assign "u" .name (.str "V"), .freeze "u"]

theorem frozen_table_unchanged_shared :
    (∀ o ∈ sharing ++ disturbing, o.IsPublic) ∧
    (∃ r, lookup (empty.after sharing).names "u" = .ok r ∧
      ((empty.after sharing).step (.freeze "u")).2.store.Frozen r) ∧
    (∃ t, FrozenTable (empty.after sharing).store 1 t [0]) ∧
    (empty.after (sharing ++ disturbing)).store.toJson 1 = (empty.after sharing).store.toJson 1 ∧
    ∀ o ∈ [Step.append "t" "c", .assign "t" .columns .null, .markPrimaryKey "c"],
      ∃ f : Fault, f.IsOfAttribute ∧ (empty.after (sharing ++ disturbing)).step o =
        (.error f, empty.after (sharing ++ disturbing)) := by
  have hpublic : ∀ o ∈ sharing ++ disturbing, o.IsPublic := by
    simp [sharing, disturbing, Step.IsPublic]
  have htable : FrozenTable (empty.after sharing).store 1
      ⟨.str "T", .str "t", .fixed [.object 0], true⟩ [0] :=
    ⟨rfl, rfl, rfl, by simpa using ⟨_, rfl⟩⟩
  obtain ⟨hfreezes, hunchanged⟩ := frozen_table_unchanged sharing disturbing hpublic
  obtain ⟨-, hform, hrefused⟩ := hunchanged 1 _ [0] htable
  refine ⟨hpublic, hfreezes (.freeze "u") "u" _ rfl rfl, ⟨_, htable⟩, hform, ?_⟩
  simp only [List.forall_mem_cons, List.not_mem_nil, false_imp_iff, implies_true, and_true]
  exact ⟨hrefused 1 (.head _) _ ⟨rfl, _, rfl⟩, hrefused 1 (.head _) _ rfl,
    hrefused 0 (.tail _ (.head _)) _ ⟨rfl, nofun⟩⟩

end Session

end Store

end ErCanvas
