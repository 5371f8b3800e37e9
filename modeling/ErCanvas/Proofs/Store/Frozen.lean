import ErCanvas.Proofs.Store.Closed

/-! # Frozen objects

A frozen object stays as it is, whoever else holds it. Of a frozen table this is only worth something
because its columns are fixed and are frozen as well; so both facts are kept together by every change.

* `Store.Spares`: what is frozen before is the same afterwards.
* `Store.Firm`: the members of a frozen table are fixed and frozen.
* `Change.Respects`: what a change does to a firm store, the rules for its parts, and then one lemma for
  each change.
* `respects_freeze`: what has been frozen is frozen, and a table with it all its columns. -/

namespace ErCanvas

/-- The object is frozen. -/
def Cell.IsFrozen : Cell → Prop
  | column c => c.isFrozen = true
  | table t => t.isFrozen = true
  | _ => False

/-! ### Frozen places -/

namespace Store

/-- At the place stands a frozen object. -/
def Frozen (s : Store) (r : Ref) : Prop := (s.cell r).IsFrozen

/-- What is frozen in `s` is the same object in `s'` and can be asked for the same. -/
def Spares (s s' : Store) : Prop :=
  ∀ r, s.Frozen r → s'.cell r = s.cell r ∧ (s'.added r).hidden = (s.added r).hidden

/-- The member is a frozen object. -/
def FrozenMember (s : Store) (m : Member) : Prop := ∃ r, m = .object r ∧ s.Frozen r

/-- The members are fixed, and each of them is frozen. -/
def Settled (s : Store) (ms : Members) : Prop :=
  ∃ items, ms = .fixed items ∧ ∀ m ∈ items, s.FrozenMember m

/-- The columns of every frozen table are fixed and frozen. -/
def Firm (s : Store) : Prop :=
  ∀ r t, s.cell r = .table t → t.isFrozen = true → s.Settled t.columns

variable {s s' s'' : Store} {r : Ref} {c : Cell} {t : TableObject} {ms : Members}

theorem Spares.refl (s : Store) : s.Spares s := fun _ _ => ⟨rfl, rfl⟩

theorem Spares.frozen (h : s.Spares s') (hr : s.Frozen r) : s'.Frozen r := by
  rw [Frozen, (h r hr).1]
  exact hr

theorem Spares.trans (h : s.Spares s') (h' : s'.Spares s'') : s.Spares s'' := fun r hr =>
  ⟨(h' r (h.frozen hr)).1.trans (h r hr).1, (h' r (h.frozen hr)).2.trans (h r hr).2⟩

theorem Spares.frozenMember {m : Member} (hs : s.Spares s') (h : s.FrozenMember m) :
    s'.FrozenMember m := by
  obtain ⟨r, hr, hf⟩ := h
  exact ⟨r, hr, hs.frozen hf⟩

theorem Settled.mono (h : s.Settled ms) (hs : s.Spares s') : s'.Settled ms := by
  obtain ⟨items, hms, hitems⟩ := h
  exact ⟨items, hms, fun m hm => hs.frozenMember (hitems m hm)⟩

/-- Where there is no object, there is only the default. -/
theorem cell_of_le (h : s.cells.length ≤ r) : s.cell r = default := by
  rw [cell, List.getD_eq_getElem?_getD, List.getElem?_eq_none h]
  rfl

theorem lt_of_cell_ne (h : s.cell r ≠ default) : r < s.cells.length := by
  by_contra hr
  exact h (cell_of_le (Nat.not_lt.1 hr))

theorem lt_of_frozen (h : s.Frozen r) : r < s.cells.length :=
  lt_of_cell_ne fun hr => by rw [Frozen, hr] at h; exact h

/-! ### The three ways to change a store -/

theorem cell_alloc (s : Store) (c : Cell) (r : Ref) :
    (s.alloc c).2.cell r = if r = s.cells.length then c else s.cell r := by
  have hlen : (s.alloc c).2.cells.length = s.cells.length + 1 := by simp [alloc]
  rcases lt_trichotomy r s.cells.length with h | rfl | h
  · simp [alloc, cell, List.getElem?_append_left h, h.ne]
  · simp [alloc, cell]
  · rw [if_neg h.ne', cell_of_le (hlen.trans_le h), cell_of_le h.le]

theorem cell_write (h : r < s.cells.length) (c : Cell) (r' : Ref) :
    (s.write r c).cell r' = if r' = r then c else s.cell r' := by
  by_cases hr : r' = r
  · subst hr
    simp [write, cell, h]
  · simp [write, cell, hr, List.getElem?_set_ne (Ne.symm hr)]

/-- An object that is not there cannot be replaced. -/
theorem write_of_le (h : s.cells.length ≤ r) (c : Cell) : s.write r c = s := by
  simp [write, List.set_eq_of_length_le h]

theorem added_add (s : Store) (r : Ref) (a : Additions) (r' : Ref) :
    (s.add r a).added r' = if r' = r then a else s.added r' := by
  by_cases hr : r' = r
  · subst hr
    simp [add, added]
  · simp [add, added, List.lookup_cons, beq_false_of_ne hr, hr]

theorem spares_alloc (s : Store) (c : Cell) : s.Spares (s.alloc c).2 := by
  intro r hr
  rw [cell_alloc, if_neg (lt_of_frozen hr).ne]
  exact ⟨rfl, rfl⟩

theorem Firm.alloc (h : s.Firm) (hc : ¬ c.IsFrozen) : (s.alloc c).2.Firm := by
  intro r t ht hf
  rw [cell_alloc] at ht
  split at ht
  · rw [ht] at hc
    exact absurd hf hc
  · exact (h r t ht hf).mono (spares_alloc s c)

/-- A frozen object may be written again as it is. -/
theorem spares_write (hr : s.Frozen r → c = s.cell r) : s.Spares (s.write r c) := by
  intro r' hr'
  rcases Nat.lt_or_ge r s.cells.length with hlt | hge
  · rw [cell_write hlt]
    split
    · rename_i heq
      subst heq
      exact ⟨hr hr', rfl⟩
    · exact ⟨rfl, rfl⟩
  · rw [write_of_le hge]
    exact ⟨rfl, rfl⟩

theorem Firm.write (h : s.Firm) (hr : s.Frozen r → c = s.cell r)
    (hc : ∀ t, c = .table t → t.isFrozen = true → s.Settled t.columns) : (s.write r c).Firm := by
  intro r' t ht hf
  refine Settled.mono ?_ (spares_write hr)
  rcases Nat.lt_or_ge r s.cells.length with hlt | hge
  · rw [cell_write hlt] at ht
    split at ht
    · exact hc t ht hf
    · exact h r' t ht hf
  · rw [write_of_le hge] at ht
    exact h r' t ht hf

/-- What a frozen object has been given may change, but not what it can be asked for. -/
theorem spares_add {a : Additions} (h : s.Frozen r → a.hidden = (s.added r).hidden) :
    s.Spares (s.add r a) := by
  intro r' hr'
  refine ⟨rfl, ?_⟩
  rw [added_add]
  split
  · rename_i heq
    subst heq
    exact h hr'
  · rfl

end Store

namespace Cell

theorem not_frozen_of_frozenFault? {c : Cell} (h : c.frozenFault? = none) : ¬ c.IsFrozen := by
  intro hf
  cases c with
  | column c => simp [frozenFault?, show c.isFrozen = true from hf] at h
  | table t => simp [frozenFault?, show t.isFrozen = true from hf] at h
  | _ => exact hf

/-- A frozen object says that it can only be read. -/
theorem exists_frozenFault? {c : Cell} (h : c.IsFrozen) :
    ∃ kind name, c.frozenFault? = some (.readOnly kind name) := by
  cases c with
  | column c => exact ⟨_, _, if_pos h⟩
  | table t => exact ⟨_, _, if_pos h⟩
  | _ => exact h.elim

end Cell

/-! ### Changes -/

namespace Change

variable {α β : Type} {s s' : Store} {r : Ref} {P : Store → α → Prop} {Q : Store → β → Prop}

/-- Made in the store `s`, the change spares what is frozen and leaves a firm store; its result, if it
gives one, has the property `P` together with that store. -/
def Respects (s : Store) (x : Change α) (P : Store → α → Prop) : Prop :=
  (x.run s).2.Firm ∧ s.Spares (x.run s).2 ∧ ∀ a, (x.run s).1 = .ok a → P (x.run s).2 a

theorem Respects.bind {x : Change α} {f : α → Change β} (hx : Respects s x P)
    (hf : ∀ s' a, s'.Firm → s.Spares s' → P s' a → Respects s' (f a) Q) :
    Respects s (x >>= f) Q := by
  obtain ⟨hfirm, hspares, hp⟩ := hx
  rcases hr : x.run s with ⟨e | a, s'⟩
  · rw [hr] at hfirm hspares
    rw [Respects, run_bind_error hr]
    exact ⟨hfirm, hspares, nofun⟩
  · rw [hr] at hfirm hspares hp
    rw [Respects, run_bind_ok hr]
    obtain ⟨h1, h2, h3⟩ := hf s' a hfirm hspares (hp a rfl)
    exact ⟨h1, hspares.trans h2, h3⟩

theorem Respects.imp {x : Change α} {P' : Store → α → Prop} (h : Respects s x P)
    (hp : ∀ s' a, P s' a → P' s' a) : Respects s x P' :=
  ⟨h.1, h.2.1, fun a ha => hp _ a (h.2.2 a ha)⟩

theorem respects_lift (hs : s.Firm) (o : Outcome α) :
    Respects s (lift o) fun s' a => s = s' ∧ o = .ok a := by
  rw [Respects, run_lift]
  exact ⟨hs, .refl s, fun a ha => ⟨rfl, ha⟩⟩

theorem respects_pure (hs : s.Firm) (a : α) : Respects s (pure a) fun s' b => s = s' ∧ b = a :=
  (respects_lift hs (.ok a)).imp fun _ _ h => ⟨h.1, (Except.ok.inj h.2).symm⟩

theorem respects_throw (hs : s.Firm) (e : Fault) : Respects s (throw e) P :=
  (respects_lift hs (.error e)).imp fun _ _ h => nomatch h.2

theorem respects_get (hs : s.Firm) : Respects s get fun s' a => s = s' ∧ a = s :=
  ⟨hs, .refl s, fun _ ha => ⟨rfl, (Except.ok.inj ha).symm⟩⟩

theorem respects_read (hs : s.Firm) (r : Ref) :
    Respects s (read r) fun s' c => s = s' ∧ c = s.cell r :=
  ⟨hs, .refl s, fun _ ha => ⟨rfl, (Except.ok.inj ha).symm⟩⟩

theorem respects_ask (hs : s.Firm) (r : Ref) (o : Operation) :
    Respects s (ask r o) fun s' _ => s = s' := by
  rw [Respects, run_ask]
  exact ⟨hs, .refl s, fun _ _ => rfl⟩

theorem respects_alloc (hs : s.Firm) {c : Cell} (hc : ¬ c.IsFrozen) :
    Respects s (alloc c) fun _ _ => True :=
  ⟨hs.alloc hc, s.spares_alloc c, fun _ _ => trivial⟩

theorem respects_write (hs : s.Firm) {c : Cell} (hr : s.Frozen r → c = s.cell r)
    (hc : ∀ t, c = .table t → t.isFrozen = true → s.Settled t.columns) :
    Respects s (write r c) fun s' _ => s' = s.write r c :=
  ⟨hs.write hr hc, Store.spares_write hr, fun _ _ => rfl⟩

theorem respects_add (hs : s.Firm) {a : Additions}
    (h : s.Frozen r → a.hidden = (s.added r).hidden) :
    Respects s (add r a) fun _ _ => True :=
  ⟨hs, Store.spares_add h, fun _ _ => trivial⟩

/-- Changes made one after the other, each of which respects what is frozen. -/
theorem respects_mapM {f : α → Change β} (as : List α)
    (hf : ∀ s a, s.Firm → Respects s (f a) fun _ _ => True) (hs : s.Firm) :
    Respects s (as.mapM f) fun _ _ => True := by
  induction as generalizing s with
  | nil => exact (respects_pure hs _).imp fun _ _ _ => trivial
  | cons a as ih =>
    rw [List.mapM_cons]
    refine (hf s a hs).bind fun s₁ b h₁ _ _ => (ih h₁).bind fun s₂ bs h₂ _ _ => ?_
    exact (respects_pure h₂ _).imp fun _ _ _ => trivial

/-! ### Freezing -/

end Change

/-- The second object is the first one, or comes from it by freezing: the columns of a table are fixed
before it is frozen itself. -/
inductive Cell.Hardens : Cell → Cell → Prop where
  | refl (c : Cell) : Hardens c c
  | column (c : ColumnObject) : Hardens (column c) (column { c with isFrozen := true })
  | table {t : TableObject} {items : List Member} (isFrozen : Bool) (ht : t.isFrozen = false)
      (hi : t.columns.items = .ok items) :
      Hardens (table t) (table { t with columns := .fixed items, isFrozen })

theorem Cell.Hardens.trans {a b c : Cell} (h : a.Hardens b) (h' : b.Hardens c) : a.Hardens c := by
  cases h with
  | refl => exact h'
  | column c =>
    cases h' with
    | refl => exact .column c
    | column => exact .column c
  | table isFrozen ht hi =>
    cases h' with
    | refl => exact .table isFrozen ht hi
    | table isFrozen' ht' hi' =>
      cases hi'
      exact .table isFrozen' ht hi

/-- A table whose columns are fixed can only become frozen. -/
theorem Cell.Hardens.exists_of_fixed {t : TableObject} {items : List Member} {c : Cell}
    (h : (Cell.table { t with columns := .fixed items }).Hardens c) :
    ∃ isFrozen, c = .table { t with columns := .fixed items, isFrozen } := by
  cases h with
  | refl => exact ⟨t.isFrozen, rfl⟩
  | table isFrozen ht hi =>
    cases hi
    exact ⟨isFrozen, rfl⟩

/-- Every object is the same or comes by freezing. -/
def Store.Hardens (s s' : Store) : Prop := ∀ r, (s.cell r).Hardens (s'.cell r)

theorem Store.Hardens.refl (s : Store) : s.Hardens s := fun _ => .refl _

theorem Store.Hardens.trans {s s' s'' : Store} (h : s.Hardens s') (h' : s'.Hardens s'') :
    s.Hardens s'' := fun r => (h r).trans (h' r)

theorem Store.hardens_write {s : Store} {r : Ref} {c : Cell} (h : (s.cell r).Hardens c) :
    s.Hardens (s.write r c) := by
  intro r'
  rcases Nat.lt_or_ge r s.cells.length with hlt | hge
  · rw [cell_write hlt]
    split
    · rename_i heq
      subst heq
      exact h
    · exact .refl _
  · rw [write_of_le hge]
    exact .refl _

namespace Change

variable {α : Type} {s : Store} {r : Ref}

/-- Objects are frozen one after the other; then all of them are frozen. -/
theorem respects_forM {f : α → Change Unit} {R : Store → α → Prop}
    (hR : ∀ {s s' : Store} {a : α}, s.Spares s' → R s a → R s' a) (as : List α)
    (hf : ∀ s, s.Firm → ∀ a ∈ as, Respects s (f a) fun s' _ => R s' a ∧ s.Hardens s')
    (hs : s.Firm) :
    Respects s (as.forM f) fun s' _ => (∀ a ∈ as, R s' a) ∧ s.Hardens s' := by
  induction as generalizing s with
  | nil => exact (respects_pure hs ()).imp fun _ _ h => ⟨nofun, h.1 ▸ .refl _⟩
  | cons a as ih =>
    refine (hf s hs a (.head _)).bind fun s₁ _ h₁ _ ha => ?_
    have hrest := ih (fun s hs b hb => hf s hs b (.tail _ hb)) h₁
    refine ⟨hrest.1, hrest.2.1, fun u hu => ?_⟩
    obtain ⟨hall, hhard⟩ := hrest.2.2 u hu
    exact ⟨List.forall_mem_cons.2 ⟨hR hrest.2.1 ha.1, hall⟩, ha.2.trans hhard⟩

/-- Freezing a table that is not frozen yet, given how its members are frozen. -/
theorem respects_freezeTable {depth : ℕ} {t : TableObject} {items : List Member} (hs : s.Firm)
    (hr : s.cell r = .table t) (ht : t.isFrozen = false) (hi : t.columns.items = .ok items)
    (hmembers : ∀ {s : Store} (r : Ref), s.Firm →
      Respects s (freezeWithin depth r) fun s' _ => s'.Frozen r ∧ s.Hardens s') :
    Respects s (do
      write r (.table { t with columns := .fixed items })
      items.forM (·.freezeWith (freezeWithin depth))
      write r (.table { t with columns := .fixed items, isFrozen := true }))
      fun s' _ => s'.Frozen r ∧ s.Hardens s' := by
  have hlt : r < s.cells.length := Store.lt_of_cell_ne (hr ▸ nofun)
  have hopen : ¬ s.Frozen r := by
    rw [Store.Frozen, hr]
    exact Bool.eq_false_iff.1 ht
  refine (respects_write hs (c := .table { t with columns := .fixed items })
    (fun h => absurd h hopen) ?_).bind ?_
  · rintro _ ⟨⟩ hf
    exact absurd hf (Bool.eq_false_iff.1 ht)
  rintro _ - h₁ - rfl
  have hall := respects_forM (f := (·.freezeWith (freezeWithin depth))) (R := Store.FrozenMember)
    Store.Spares.frozenMember items ?_ h₁
  · refine hall.bind fun s₂ _ h₂ _ h => ?_
    obtain ⟨hfrozen, hhard⟩ := h
    -- the table may have been frozen with its members, but then just as it is frozen now
    have hfixed : (s.write r (.table { t with columns := .fixed items })).cell r =
        .table { t with columns := .fixed items } := by rw [Store.cell_write hlt, if_pos rfl]
    obtain ⟨isFrozen, hr₂⟩ := (hfixed ▸ hhard r).exists_of_fixed
    have hsame : s₂.Frozen r →
        Cell.table { t with columns := .fixed items, isFrozen := true } = s₂.cell r := by
      intro hf
      rw [Store.Frozen, hr₂] at hf
      rw [hr₂, show isFrozen = true from hf]
    refine (respects_write h₂ hsame ?_).imp ?_
    · rintro _ ⟨⟩ -
      exact ⟨items, rfl, hfrozen⟩
    rintro _ - rfl
    have hlt₂ : r < s₂.cells.length := Store.lt_of_cell_ne (hr₂ ▸ nofun)
    refine ⟨by rw [Store.Frozen, Store.cell_write hlt₂, if_pos rfl]; rfl, fun r' => ?_⟩
    rw [Store.cell_write hlt₂]
    split
    · rename_i heq
      rw [heq, hr]
      exact .table true ht hi
    · rename_i hne
      have hr' := hhard r'
      rwa [Store.cell_write hlt, if_neg hne] at hr'
  · intro s hs m hm
    cases m with
    | object r =>
      exact (hmembers r hs).imp fun _ _ h => ⟨⟨r, rfl, h.1⟩, h.2⟩
    | plain v => exact respects_throw hs _

/-- **Freezing** an object: afterwards it is frozen, with all that it is made of. -/
theorem respects_freezeWithin (depth : ℕ) (r : Ref) (hs : s.Firm) :
    Respects s (freezeWithin depth r) fun s' _ => s'.Frozen r ∧ s.Hardens s' := by
  induction depth generalizing s r with
  | zero => exact respects_throw hs _
  | succ depth ih =>
    refine (respects_ask hs r .freeze).bind fun _ _ _ _ h => ?_
    subst h
    refine (respects_read hs r).bind fun _ c _ _ h => ?_
    obtain ⟨rfl, hc⟩ := h
    cases c with
    | column c =>
      have hsame : s.Frozen r → Cell.column { c with isFrozen := true } = s.cell r := by
        intro hf
        rw [Store.Frozen, ← hc] at hf
        rw [← hc, ← show c.isFrozen = true from hf]
      refine (respects_write hs hsame fun _ => nofun).imp ?_
      rintro _ - rfl
      refine ⟨?_, Store.hardens_write (hc ▸ .column c)⟩
      rw [Store.Frozen, Store.cell_write (Store.lt_of_cell_ne (hc ▸ nofun)), if_pos rfl]
      rfl
    | table t =>
      dsimp only
      split
      · rename_i hopen
        have hopen : t.isFrozen = false := by simpa using hopen
        refine (respects_lift hs _).bind fun _ items _ _ h => ?_
        obtain ⟨rfl, hi⟩ := h
        exact respects_freezeTable hs hc.symm hopen hi ih
      · rename_i hfrozen
        refine (respects_pure hs ()).imp ?_
        rintro _ - ⟨rfl, -⟩
        refine ⟨?_, .refl _⟩
        rw [Store.Frozen, ← hc, Cell.IsFrozen]
        simpa using hfrozen
    | _ => exact respects_throw hs _

theorem respects_freeze (hs : s.Firm) (r : Ref) :
    Respects s (freeze r) fun s' _ => s'.Frozen r ∧ s.Hardens s' := by
  refine (respects_get hs).bind ?_
  rintro _ _ - - ⟨rfl, rfl⟩
  exact respects_freezeWithin _ r hs

/-! ### Making objects -/

theorem respects_newTable (hs : s.Firm) (name : Json) (columns : Members) :
    Respects s (newTable name columns) fun _ _ => True :=
  (respects_lift hs _).bind fun _ _ h _ _ => respects_alloc h Bool.false_ne_true

theorem respects_copyTable (hs : s.Firm) (t : Table Json) :
    Respects s (copyTable t) fun _ _ => True := by
  refine (respects_mapM t.columns (fun s c hs => ?_) hs).bind fun _ _ h _ _ =>
    respects_newTable h _ _
  exact respects_alloc hs (c := .column (.ofColumn c)) Bool.false_ne_true

theorem respects_newRelationship (hs : s.Firm) (r : Relationship Json) :
    Respects s (newRelationship r) fun _ _ => True :=
  respects_alloc hs id

/-- **A new schema** freezes its tables. -/
theorem respects_newSchema (hs : s.Firm) (tables relationships : List Ref) :
    Respects s (newSchema tables relationships) fun s' _ => ∀ r ∈ tables, s'.Frozen r := by
  have hall := respects_forM (f := freeze) (R := Store.Frozen) Store.Spares.frozen tables
    (fun _ hs r _ => respects_freeze hs r) hs
  refine hall.bind fun s₁ _ h₁ _ hfrozen => ?_
  have halloc := respects_alloc h₁ (c := .schema ⟨.fixed (tables.map .object),
    .fixed (relationships.map .object)⟩) id
  exact ⟨halloc.1, halloc.2.1, fun _ _ r hr => halloc.2.1.frozen (hfrozen.1 r hr)⟩

theorem respects_copySchema (hs : s.Firm) (sc : Schema Json) :
    Respects s (copySchema sc) fun _ _ => True := by
  refine (respects_mapM _ (fun _ t hs => respects_copyTable hs t) hs).bind fun _ _ h₁ _ _ => ?_
  refine (respects_mapM _ (fun _ r hs => respects_newRelationship hs r) h₁).bind
    fun _ _ h₂ _ _ => ?_
  exact (respects_newSchema h₂ _ _).imp fun _ _ _ => trivial

theorem respects_newDiagram (hs : s.Firm) (schema : Ref) (positions zoom pan version : Json) :
    Respects s (newDiagram schema positions zoom pan version) fun _ _ => True := by
  refine (respects_lift hs _).bind fun _ _ h₁ _ _ => ?_
  refine (respects_lift h₁ _).bind fun _ _ h₂ _ _ => ?_
  refine (respects_lift h₂ _).bind fun _ _ h₃ _ _ => ?_
  exact respects_alloc h₃ id

theorem respects_copyDiagram (hs : s.Firm) (d : Diagram) :
    Respects s (copyDiagram d) fun _ _ => True :=
  (respects_copySchema hs d.schema).bind fun _ _ h _ _ => respects_alloc h id

/-! ### Changing objects -/

theorem not_frozen_of_frozenFault? (h : (s.cell r).frozenFault? = none) : ¬ s.Frozen r :=
  Cell.not_frozen_of_frozenFault? h

/-- Only by name can an attribute freeze an object. -/
theorem isFrozen_assign {c : Cell} {f : Field} (hf : f ≠ .frozen) {v : Json}
    (h : (c.assign f v).IsFrozen) : c.IsFrozen := by
  cases c with
  | column c =>
    cases f with
    | frozen => exact absurd rfl hf
    | _ => exact h
  | table t =>
    cases f with
    | frozen => exact absurd rfl hf
    | _ => exact h
  | relationship id r =>
    rw [Cell.assign] at h
    split at h <;> exact h
  | _ => exact h

theorem respects_assign (hs : s.Firm) (r : Ref) {f : Field} (hf : f ≠ .frozen) (v : Json) :
    Respects s (assign r f v) fun _ _ => True := by
  refine (respects_read hs r).bind ?_
  rintro _ c - - ⟨rfl, rfl⟩
  cases ha : (s.cell r).assignFault? f with
  | some fault => exact respects_throw hs fault
  | none =>
    have hopen : ¬ s.Frozen r := not_frozen_of_frozenFault? (Option.or_eq_none_iff.1 ha).1
    have hopen' : ¬ ((s.cell r).assign f v).IsFrozen := fun h => hopen (isFrozen_assign hf h)
    refine (respects_write hs (fun h => absurd h hopen) ?_).bind ?_
    · intro t ht hfrozen
      rw [ht] at hopen'
      exact absurd hfrozen hopen'
    rintro _ - h₁ - rfl
    refine (respects_get h₁).bind ?_
    rintro _ _ - - ⟨rfl, rfl⟩
    refine respects_add h₁ fun hfrozen => absurd hfrozen ?_
    have hlt := Store.lt_of_frozen hfrozen
    rw [Store.length_write] at hlt
    rw [Store.Frozen, Store.cell_write hlt, if_pos rfl]
    exact hopen'

theorem respects_changeColumn (hs : s.Firm) (o : Operation) (change : ColumnObject → ColumnObject)
    (r : Ref) : Respects s (changeColumn o change r) fun _ _ => True := by
  refine (respects_ask hs r o).bind ?_
  rintro _ - - - rfl
  refine (respects_read hs r).bind ?_
  rintro _ c - - ⟨rfl, hc⟩
  cases c with
  | column c =>
    dsimp only
    split
    · exact respects_throw hs _
    · rename_i hnone
      refine (respects_write hs (c := .column (change c)) (fun h => absurd h ?_)
        fun _ => nofun).imp fun _ _ _ => trivial
      exact not_frozen_of_frozenFault? (hc ▸ hnone)
  | _ => exact respects_throw hs _

/-- What can be appended to is no frozen table. -/
theorem not_frozen_of_growable (hs : s.Firm) {t : TableObject} (ht : s.cell r = .table t)
    {items : List Member} (hi : t.columns.growable = .ok items) : ¬ s.Frozen r := by
  intro hf
  rw [Store.Frozen, ht] at hf
  obtain ⟨fixed, hfixed, -⟩ := hs r t ht hf
  rw [hfixed] at hi
  cases hi

theorem respects_setColumns (hs : s.Firm)
    (hr : ∀ t, s.cell r = .table t → ¬ s.Frozen r) (columns : Members) :
    Respects s (setColumns r columns) fun _ _ => True := by
  have hadd : Respects s (do add r { (← get).added r with columns }) fun _ _ => True := by
    refine (respects_get hs).bind ?_
    rintro _ _ - - ⟨rfl, rfl⟩
    exact respects_add hs fun _ => rfl
  refine (respects_read hs r).bind ?_
  rintro _ c - - ⟨rfl, hc⟩
  cases c with
  | table t =>
    have hopen := hr t hc.symm
    refine (respects_write hs (fun h => absurd h hopen) ?_).imp fun _ _ _ => trivial
    rintro _ ⟨⟩ hfrozen
    rw [Store.Frozen, ← hc] at hopen
    exact absurd hfrozen hopen
  | _ => exact hadd

theorem respects_append (hs : s.Firm) (r : Ref) (column : Outcome Ref) :
    Respects s (append r column) fun _ _ => True := by
  refine (respects_get hs).bind ?_
  rintro _ _ - - ⟨rfl, rfl⟩
  refine (respects_lift hs _).bind ?_
  rintro _ columns - - ⟨rfl, hc⟩
  refine (respects_lift hs _).bind ?_
  rintro _ items - - ⟨rfl, hi⟩
  refine (respects_lift hs _).bind ?_
  rintro _ c - - ⟨rfl, -⟩
  refine respects_setColumns hs (fun t ht => ?_) _
  rw [Store.columns, ht] at hc
  cases hc
  exact not_frozen_of_growable hs ht hi

end Change

end ErCanvas
