import Mathlib.Data.Nat.Basic
import Mathlib.Order.Basic
import ErCanvas.Proofs.Outcome
import ErCanvas.Store.Session

/-! # Closed stores

Objects refer to each other by their places. In a closed store each place that is referred to is that
of an object, and only objects have been given anything. Every change leaves a closed store closed.

* `Below`: what refers to the first places of a store only.
* `Store.Closed`: the invariant of a store.
* `Change.Keeps`: what a change does to a closed store, the rules for its parts, and then one lemma for
  each change. -/

namespace ErCanvas

/-! ### References -/

/-- The member is an object at one of the first `n` places, or no object. -/
def Member.Below (n : ℕ) : Member → Prop
  | object r => r < n
  | plain _ => True

def Members.Below (n : ℕ) (ms : Members) : Prop :=
  ∀ items, ms.items = .ok items → ∀ m ∈ items, m.Below n

/-- The object refers only to the first `n` places. -/
def Cell.Below (n : ℕ) : Cell → Prop
  | table t => t.columns.Below n
  | schema s => s.tables.Below n ∧ s.relationships.Below n
  | diagram d => d.schema.Below n
  | _ => True

def Additions.Below (n : ℕ) (a : Additions) : Prop := ∀ ms ∈ a.columns, ms.Below n

section

variable {m n : ℕ}

theorem Member.Below.mono {x : Member} (h : x.Below m) (hmn : m ≤ n) : x.Below n := by
  cases x with
  | object r => exact Nat.lt_of_lt_of_le h hmn
  | plain v => trivial

theorem Members.Below.mono {ms : Members} (h : ms.Below m) (hmn : m ≤ n) : ms.Below n :=
  fun items hi x hx => (h items hi x hx).mono hmn

theorem Cell.Below.mono {c : Cell} (h : c.Below m) (hmn : m ≤ n) : c.Below n := by
  cases c with
  | table t => exact Members.Below.mono h hmn
  | schema s => exact ⟨h.1.mono hmn, h.2.mono hmn⟩
  | diagram d => exact Member.Below.mono h hmn
  | _ => trivial

theorem Additions.Below.mono {a : Additions} (h : a.Below m) (hmn : m ≤ n) : a.Below n :=
  fun ms hms => (h ms hms).mono hmn

theorem Members.below_growing {items : List Member} (h : ∀ x ∈ items, x.Below n) :
    (growing items).Below n := by
  rintro _ ⟨⟩
  exact h

theorem Members.below_fixed {items : List Member} (h : ∀ x ∈ items, x.Below n) :
    (fixed items).Below n := by
  rintro _ ⟨⟩
  exact h

theorem Members.below_plain (v : Json) : (plain v).Below n := by
  intro items hi x hx
  have hi : v.members.map (·.map Member.plain) = .ok items := hi
  cases hv : v.members with
  | error e => rw [hv] at hi; cases hi
  | ok vs =>
    rw [hv] at hi
    cases hi
    obtain ⟨w, -, rfl⟩ := List.mem_map.1 hx
    trivial

theorem Members.below_ofJson (v : Json) : (ofJson v).Below n := by
  unfold ofJson
  split
  · exact below_growing (List.forall_mem_map.2 fun _ _ => trivial)
  · exact below_plain v

theorem Members.below_ofRefs {rs : List Ref} (h : ∀ r ∈ rs, r < n) : (ofRefs rs).Below n :=
  below_growing (List.forall_mem_map.2 h)

end

/-! ### The invariant -/

/-- Each place that is referred to is that of an object, and only objects have been given anything. -/
structure Store.Closed (s : Store) : Prop where
  cells : ∀ c ∈ s.cells, c.Below s.cells.length
  additions : ∀ e ∈ s.additions, e.1 < s.cells.length ∧ e.2.Below s.cells.length

namespace Store

theorem closed_empty : Closed empty := ⟨nofun, nofun⟩

variable {s : Store} {r : Ref} {c : Cell} {a : Additions}

theorem Closed.cell (h : s.Closed) (r : Ref) : (s.cell r).Below s.cells.length := by
  unfold Store.cell
  rw [List.getD_eq_getElem?_getD]
  cases hr : s.cells[r]? with
  | none => trivial
  | some c => exact h.cells c (List.mem_of_getElem? hr)

theorem mem_of_lookup {α β : Type} [BEq α] [LawfulBEq α] {a : α} {b : β} {es : List (α × β)}
    (h : es.lookup a = some b) : (a, b) ∈ es := by
  obtain ⟨l₁, l₂, rfl, -⟩ := List.lookup_eq_some_iff.1 h
  simp

theorem Closed.added (h : s.Closed) (r : Ref) : (s.added r).Below s.cells.length := by
  unfold Store.added
  cases hr : s.additions.lookup r with
  | none => nofun
  | some a => exact (h.additions _ (mem_of_lookup hr)).2

/-- An object that is not there yet has been given nothing. -/
theorem Closed.added_length (h : s.Closed) : s.added s.cells.length = {} := by
  unfold Store.added
  cases hr : s.additions.lookup s.cells.length with
  | none => rfl
  | some a => exact absurd (h.additions _ (mem_of_lookup hr)).1 (lt_irrefl _)

theorem Closed.alloc (h : s.Closed) (hc : c.Below s.cells.length) : (s.alloc c).2.Closed where
  cells := by
    have hlen : s.cells.length ≤ (s.alloc c).2.cells.length := by simp [Store.alloc]
    intro d hd
    rcases List.mem_append.1 hd with hd | hd
    · exact (h.cells d hd).mono hlen
    · rw [List.mem_singleton.1 hd]
      exact hc.mono hlen
  additions e he := by
    have hlen : s.cells.length ≤ (s.alloc c).2.cells.length := by simp [Store.alloc]
    obtain ⟨h1, h2⟩ := h.additions e he
    exact ⟨h1.trans_le hlen, h2.mono hlen⟩

theorem length_write (s : Store) (r : Ref) (c : Cell) :
    (s.write r c).cells.length = s.cells.length := by simp [Store.write]

theorem Closed.write (h : s.Closed) (hc : c.Below s.cells.length) : (s.write r c).Closed where
  cells d hd := by
    rw [length_write]
    rcases List.mem_or_eq_of_mem_set hd with hd | rfl
    · exact h.cells d hd
    · exact hc
  additions := by
    rw [length_write]
    exact h.additions

theorem Closed.add (h : s.Closed) (hr : r < s.cells.length) (ha : a.Below s.cells.length) :
    (s.add r a).Closed where
  cells := h.cells
  additions := List.forall_mem_cons.2 ⟨⟨hr, ha⟩, h.additions⟩

end Store

/-! ### Changes -/

namespace Change

variable {α β : Type} {s s' : Store}

/-- A change goes on with the result of its first part, in the store that this leaves. -/
theorem run_bind_ok {x : Change α} {a : α} (h : x.run s = (.ok a, s')) (f : α → Change β) :
    (x >>= f).run s = (f a).run s' := by
  have hb : (x >>= f).run s = (x.run >>= fun r => ExceptT.bindCont f r) s := rfl
  rw [hb]
  simp only [bind, StateT.bind, h]
  rfl

/-- A change whose first part fails ends there. -/
theorem run_bind_error {x : Change α} {e : Fault} (h : x.run s = (.error e, s'))
    (f : α → Change β) : (x >>= f).run s = (.error e, s') := by
  have hb : (x >>= f).run s = (x.run >>= fun r => ExceptT.bindCont f r) s := rfl
  rw [hb]
  simp only [bind, StateT.bind, h]
  rfl

theorem run_lift (o : Outcome α) : (lift o).run s = (o, s) := by cases o <;> rfl

theorem run_ask (r : Ref) (o : Operation) : (ask r o).run s = (s.ask r o, s) :=
  (run_bind_ok (x := get) rfl _).trans (run_lift _)

/-- A change that is made in a closed store of at least `n` objects leaves such a store and loses no
objects; its result, if it gives one, has the property `P`, which may speak of the number of objects. -/
def Keeps (n : ℕ) (x : Change α) (P : ℕ → α → Prop) : Prop :=
  ∀ s : Store, s.Closed → n ≤ s.cells.length →
    (x.run s).2.Closed ∧ s.cells.length ≤ (x.run s).2.cells.length ∧
      ∀ a, (x.run s).1 = .ok a → P (x.run s).2.cells.length a

variable {n : ℕ} {P : ℕ → α → Prop} {Q : ℕ → β → Prop}

theorem Keeps.bind {x : Change α} {f : α → Change β} (hx : Keeps n x P)
    (hf : ∀ m a, n ≤ m → P m a → Keeps m (f a) Q) : Keeps n (x >>= f) Q := by
  intro s hs hn
  obtain ⟨hc, hle, hp⟩ := hx s hs hn
  rcases hr : x.run s with ⟨e | a, s'⟩
  · rw [hr] at hc hle
    rw [run_bind_error hr]
    exact ⟨hc, hle, nofun⟩
  · rw [hr] at hc hle hp
    rw [run_bind_ok hr]
    obtain ⟨hc', hle', hq⟩ := hf _ a (hn.trans hle) (hp a rfl) s' hc le_rfl
    exact ⟨hc', hle.trans hle', hq⟩

theorem Keeps.mono {m : ℕ} {x : Change α} (h : Keeps m x P) (hmn : m ≤ n) : Keeps n x P :=
  fun s hs hn => h s hs (hmn.trans hn)

theorem keeps_lift {o : Outcome α} (h : ∀ m a, n ≤ m → o = .ok a → P m a) :
    Keeps n (lift o) P := by
  intro s hs hn
  rw [run_lift]
  exact ⟨hs, le_rfl, fun a ha => h _ a hn ha⟩

theorem keeps_pure {a : α} (h : ∀ m, n ≤ m → P m a) : Keeps n (pure a) P :=
  keeps_lift (o := .ok a) fun m _ hm hb => by cases hb; exact h m hm

theorem keeps_throw (e : Fault) : Keeps n (throw e) P :=
  keeps_lift (o := .error e) nofun

theorem keeps_get : Keeps n get fun m s => s.Closed ∧ s.cells.length ≤ m :=
  fun _ hs _ => ⟨hs, le_rfl, fun _ ha => by cases ha; exact ⟨hs, le_rfl⟩⟩

theorem keeps_ask (r : Ref) (o : Operation) : Keeps n (ask r o) fun _ _ => True := by
  intro s hs _
  rw [run_ask]
  exact ⟨hs, le_rfl, fun _ _ => trivial⟩

theorem keeps_read (r : Ref) : Keeps n (read r) fun m c => c.Below m :=
  fun s hs _ => ⟨hs, le_rfl, fun _ ha => by cases ha; exact hs.cell r⟩

theorem keeps_write {r : Ref} {c : Cell} (hc : c.Below n) : Keeps n (write r c) fun _ _ => True :=
  fun s hs hn => ⟨hs.write (hc.mono hn), (s.length_write r c).ge, fun _ _ => trivial⟩

theorem keeps_add {r : Ref} {a : Additions} (hr : r < n) (ha : a.Below n) :
    Keeps n (add r a) fun _ _ => True :=
  fun _ hs hn => ⟨hs.add (hr.trans_le hn) (ha.mono hn), le_rfl, fun _ _ => trivial⟩

theorem keeps_alloc {c : Cell} (hc : c.Below n) : Keeps n (alloc c) fun m r => r < m := by
  intro s hs hn
  have hlen : (s.alloc c).2.cells.length = s.cells.length + 1 := by simp [Store.alloc]
  refine ⟨hs.alloc (hc.mono hn), hlen.ge.trans' (Nat.le_succ _), fun r hr => ?_⟩
  cases hr
  exact hlen.ge

/-- All that is made one after the other is there in the end. -/
theorem keeps_mapM_ref {f : α → Change Ref} (as : List α)
    (hf : ∀ m a, n ≤ m → Keeps m (f a) fun k r => r < k) :
    Keeps n (as.mapM f) fun k rs => ∀ r ∈ rs, r < k := by
  induction as generalizing n with
  | nil => exact keeps_pure fun _ _ => nofun
  | cons a as ih =>
    rw [List.mapM_cons]
    refine (hf n a le_rfl).bind fun m r hm hr => ?_
    refine (ih fun k a hk => hf k a (hm.trans hk)).bind fun k rs hk hrs => keeps_pure fun l hl => ?_
    exact List.forall_mem_cons.2 ⟨hr.trans_le (hk.trans hl), fun r hr => (hrs r hr).trans_le hl⟩

theorem keeps_forM {f : α → Change Unit} (as : List α)
    (hf : ∀ m, n ≤ m → ∀ a ∈ as, Keeps m (f a) fun _ _ => True) :
    Keeps n (as.forM f) fun _ _ => True := by
  induction as generalizing n with
  | nil => exact keeps_pure fun _ _ => trivial
  | cons a as ih =>
    refine (hf n le_rfl a (.head _)).bind fun m _ hm _ => ?_
    exact ih fun k hk a ha => hf k (hm.trans hk) a (.tail _ ha)

/-! ### Making objects -/

theorem keeps_newTable {name : Json} {columns : Members} (h : columns.Below n) :
    Keeps n (newTable name columns) fun m r => r < m :=
  (keeps_lift (P := fun _ _ => True) fun _ _ _ _ => trivial).bind fun _ _ hm _ =>
    keeps_alloc (h.mono hm)

theorem keeps_copyTable (t : Table Json) : Keeps n (copyTable t) fun m r => r < m :=
  (keeps_mapM_ref _ fun _ c _ => keeps_alloc (c := .column (.ofColumn c)) trivial).bind
    fun _ _ _ hrs => keeps_newTable (Members.below_ofRefs hrs)

theorem keeps_newRelationship (r : Relationship Json) :
    Keeps n (newRelationship r) fun m r => r < m :=
  keeps_alloc trivial

theorem keeps_freezeWithin (depth : ℕ) (r : Ref) :
    Keeps n (freezeWithin depth r) fun _ _ => True := by
  induction depth generalizing n r with
  | zero => exact keeps_throw _
  | succ depth ih =>
    refine (keeps_ask r _).bind fun m _ _ _ => (keeps_read r).bind fun m c hm hc => ?_
    cases c with
    | column c => exact keeps_write trivial
    | table t =>
      dsimp only
      split
      · have hitems : Keeps m (lift t.columns.items) fun _ items => ∀ x ∈ items, x.Below m :=
          keeps_lift fun _ _ _ h => hc _ h
        refine hitems.bind fun k items hk hx => ?_
        have hb : (Cell.table { t with columns := .fixed items }).Below k :=
          Members.below_fixed fun x hx' => (hx x hx').mono hk
        refine (keeps_write hb).bind fun l _ hl _ => ?_
        refine (keeps_forM items fun j _ x _ => ?_).bind fun j _ hj _ =>
          keeps_write (hb.mono (hl.trans hj))
        cases x with
        | object r => exact ih r
        | plain v => exact keeps_throw _
      · exact keeps_pure fun _ _ => trivial
    | _ => exact keeps_throw _

theorem keeps_freeze (r : Ref) : Keeps n (freeze r) fun _ _ => True :=
  keeps_get.bind fun _ s _ _ => keeps_freezeWithin s.depth r

theorem keeps_newSchema {tables relationships : List Ref} (ht : ∀ r ∈ tables, r < n)
    (hr : ∀ r ∈ relationships, r < n) :
    Keeps n (newSchema tables relationships) fun m r => r < m :=
  (keeps_forM tables fun _ _ r _ => keeps_freeze r).bind fun _ _ hm _ => keeps_alloc
    ⟨Members.below_fixed (List.forall_mem_map.2 fun r h => (ht r h).trans_le hm),
      Members.below_fixed (List.forall_mem_map.2 fun r h => (hr r h).trans_le hm)⟩

theorem keeps_copySchema (s : Schema Json) : Keeps n (copySchema s) fun m r => r < m :=
  (keeps_mapM_ref _ fun _ t _ => keeps_copyTable t).bind fun _ _ _ ht =>
    (keeps_mapM_ref _ fun _ r _ => keeps_newRelationship r).bind fun _ _ hm hr =>
      keeps_newSchema (fun r h => (ht r h).trans_le hm) hr

theorem keeps_newDiagram {schema : Ref} (h : schema < n) (positions zoom pan version : Json) :
    Keeps n (newDiagram schema positions zoom pan version) fun m r => r < m := by
  refine (keeps_lift fun _ _ _ _ => trivial).bind fun _ _ h1 _ => ?_
  refine (keeps_lift fun _ _ _ _ => trivial).bind fun _ _ h2 _ => ?_
  refine (keeps_lift fun _ _ _ _ => trivial).bind fun _ _ h3 _ => ?_
  exact keeps_alloc (h.trans_le (h1.trans (h2.trans h3)))

theorem keeps_copyDiagram (d : Diagram) : Keeps n (copyDiagram d) fun m r => r < m :=
  (keeps_copySchema d.schema).bind fun _ _ _ h => keeps_alloc h

/-! ### Changing objects -/

theorem below_assign_table {t : TableObject} (h : t.columns.Below n) (f : Field) (v : Json) :
    (t.assign f v).columns.Below n := by
  unfold TableObject.assign
  split
  · exact h
  · exact h
  · exact Members.below_ofJson v
  · exact h
  · exact h

theorem below_assign_schema {sc : SchemaObject} (h : (Cell.schema sc).Below n) (f : Field)
    (v : Json) : (Cell.schema (sc.assign f v)).Below n := by
  unfold SchemaObject.assign
  split
  · exact ⟨Members.below_ofJson v, h.2⟩
  · exact ⟨h.1, Members.below_ofJson v⟩
  · exact h

theorem below_assign_diagram {d : DiagramObject} (h : d.schema.Below n) (f : Field) (v : Json) :
    (d.assign f v).schema.Below n := by
  unfold DiagramObject.assign
  split
  · exact h
  · trivial
  · exact h
  · exact h
  · exact h
  · exact h

theorem below_assign {c : Cell} (h : c.Below n) (f : Field) (v : Json) :
    (c.assign f v).Below n := by
  cases c with
  | table t => exact below_assign_table h f v
  | schema sc => exact below_assign_schema h f v
  | diagram d => exact below_assign_diagram h f v
  | relationship id r =>
    rw [Cell.assign]
    split
    · trivial
    · trivial
  | _ => trivial

theorem below_assign_additions {a : Additions} (h : a.Below n) (f : Field) (v : Json) :
    (a.assign f v).Below n := by
  unfold Additions.assign
  split
  · exact h
  · exact h
  · rintro _ ⟨⟩
    exact Members.below_ofJson v
  · exact h
  · exact h

theorem keeps_assign {r : Ref} (h : r < n) (f : Field) (v : Json) :
    Keeps n (assign r f v) fun _ _ => True := by
  refine (keeps_read r).bind fun m c hm hc => ?_
  cases c.assignFault? f with
  | some fault => exact keeps_throw fault
  | none =>
    refine (keeps_write (below_assign hc f v)).bind fun k _ hk _ => ?_
    refine keeps_get.bind fun l s hl hs => ?_
    have ha : (s.added r).Below l := (hs.1.added r).mono hs.2
    exact keeps_add (h.trans_le (hm.trans (hk.trans hl))) (below_assign_additions ha f v)

theorem keeps_changeColumn (o : Operation) (change : ColumnObject → ColumnObject) (r : Ref) :
    Keeps n (changeColumn o change r) fun _ _ => True := by
  refine (keeps_ask r o).bind fun m _ _ _ => (keeps_read r).bind fun m c _ _ => ?_
  cases c with
  | column c =>
    dsimp only
    split
    · exact keeps_throw _
    · exact keeps_write trivial
  | _ => exact keeps_throw _

theorem below_columns {s : Store} (hs : s.Closed) {r : Ref} {ms : Members}
    (h : s.columns r = .ok ms) : ms.Below s.cells.length := by
  have hc := hs.cell r
  have ha := hs.added r
  unfold Store.columns at h
  split at h
  · rename_i t _ ht
    cases h
    rw [ht] at hc
    exact hc
  · rename_i hms _
    cases h
    exact ha ms hms
  · cases h

theorem keeps_setColumns {r : Ref} {columns : Members} (h : r < n) (hc : columns.Below n) :
    Keeps n (setColumns r columns) fun _ _ => True := by
  have hadd : ∀ m, n ≤ m →
      Keeps m (do add r { (← get).added r with columns }) fun _ _ => True := by
    intro m hm
    refine keeps_get.bind fun k s hk hs => keeps_add (h.trans_le (hm.trans hk)) ?_
    rintro _ ⟨⟩
    exact hc.mono (hm.trans hk)
  refine (keeps_read r).bind fun m c hm _ => ?_
  cases c with
  | table t => exact keeps_write (hc.mono hm)
  | _ => exact hadd m hm

theorem keeps_append {r : Ref} {column : Outcome Ref} (h : r < n)
    (hc : ∀ c, column = .ok c → c < n) : Keeps n (append r column) fun _ _ => True := by
  refine keeps_get.bind fun m s hm hs => ?_
  have hcolumns : Keeps m (lift (s.columns r)) fun k ms => ms.Below k :=
    keeps_lift fun k ms hk hms => (below_columns hs.1 hms).mono (hs.2.trans hk)
  refine hcolumns.bind fun k ms hk hms => ?_
  have hitems : Keeps k (lift ms.growable) fun _ items => ∀ x ∈ items, x.Below k := by
    refine keeps_lift fun _ items _ hi => ?_
    cases ms with
    | growing items' => cases hi; exact hms _ rfl
    | _ => cases hi
  refine hitems.bind fun l items hl hx => ?_
  refine (keeps_lift fun j c _ h => hc c h).bind fun j c hj hc => ?_
  have hn : n ≤ j := hm.trans (hk.trans (hl.trans hj))
  refine keeps_setColumns (h.trans_le hn) (Members.below_growing fun x hx' => ?_)
  rcases List.mem_append.1 hx' with hx' | hx'
  · exact (hx x hx').mono (hl.trans hj)
  · rw [List.mem_singleton.1 hx']
    exact hc.trans_le hn

end Change

end ErCanvas
