import ErCanvas.Proofs.Store.Closed

/-! # Closed sessions

Whatever is done in a session, its names stand for objects and its store stays closed. So an object that
is made next has been given nothing: no operation on it is hidden.

* `Session.Closed`: the invariant of a session.
* `keeps_build`, `keeps_perform`: what the making of an object and a step do.
* `Session.Closed.after`: sessions stay closed. -/

namespace ErCanvas

/-! ### Looking through objects -/

namespace Store

variable {n : ℕ} {s : Store}

theorem below_indexFrom {wanted : String} {k : ℕ} {items : List Member} {found : ℕ × Ref}
    (h : ∀ x ∈ items, x.Below n) (hf : s.indexFrom wanted k items = .ok (some found)) :
    found.2 < n := by
  induction items generalizing k with
  | nil => cases hf
  | cons x items ih =>
    obtain ⟨hx, hxs⟩ := List.forall_mem_cons.1 h
    cases x with
    | plain v => cases hf
    | object r =>
      rw [indexFrom] at hf
      obtain ⟨name, -, hf⟩ := Outcome.bind_eq_ok.1 hf
      obtain ⟨lower, -, hf⟩ := Outcome.bind_eq_ok.1 hf
      split at hf
      · cases hf; exact hx
      · exact ih hxs hf

theorem below_findById {id : String} {items : List Member} {found : Ref}
    (h : ∀ x ∈ items, x.Below n) (hf : s.findById id items = .ok (some found)) : found < n := by
  induction items with
  | nil => cases hf
  | cons x items ih =>
    obtain ⟨hx, hxs⟩ := List.forall_mem_cons.1 h
    cases x with
    | plain v => cases hf
    | object r =>
      rw [findById] at hf
      obtain ⟨id', -, hf⟩ := Outcome.bind_eq_ok.1 hf
      split at hf
      · cases hf; exact hx
      · exact ih hxs hf

theorem Closed.column? (hs : s.Closed) {o : Operation} {r : Ref} {wanted : Json}
    {found : ℕ × Ref} (h : s.column? o r wanted = .ok (some found)) :
    found.2 < s.cells.length := by
  have hc := hs.cell r
  obtain ⟨_, -, h⟩ := Outcome.bind_eq_ok.1 h
  cases hr : s.cell r with
  | table t =>
    rw [hr] at h hc
    obtain ⟨lower, -, h⟩ := Outcome.bind_eq_ok.1 h
    obtain ⟨items, hi, h⟩ := Outcome.bind_eq_ok.1 h
    exact below_indexFrom (hc items hi) h
  | _ => rw [hr] at h; cases h

theorem Closed.table? (hs : s.Closed) {r : Ref} {wanted : Json} {found : Ref}
    (h : s.table? r wanted = .ok (some found)) : found < s.cells.length := by
  have hc := hs.cell r
  obtain ⟨_, -, h⟩ := Outcome.bind_eq_ok.1 h
  cases hr : s.cell r with
  | schema sc =>
    rw [hr] at h hc
    obtain ⟨lower, -, h⟩ := Outcome.bind_eq_ok.1 h
    obtain ⟨items, hi, h⟩ := Outcome.bind_eq_ok.1 h
    exact below_findById (hc.1 items hi) h
  | _ => rw [hr] at h; cases h

end Store

/-! ### Sessions -/

namespace Store.Session

open Change

/-- All names stand for objects of the store, and the store is closed. -/
structure Closed (s : Session) : Prop where
  store : s.store.Closed
  names : ∀ p ∈ s.names, p.2 < s.store.cells.length

section

variable {n : ℕ} {names : List (String × Ref)}

theorem lt_of_lookup (h : ∀ p ∈ names, p.2 < n) {name : String} {r : Ref}
    (hr : lookup names name = .ok r) : r < n := by
  unfold lookup at hr
  split at hr
  · cases hr
    exact h _ (mem_of_lookup ‹_›)
  · cases hr

theorem keeps_lookup (h : ∀ p ∈ names, p.2 < n) (name : String) :
    Keeps n (lift (lookup names name)) fun _ r => r < n :=
  keeps_lift fun _ _ _ hr => lt_of_lookup h hr

theorem keeps_lookups (h : ∀ p ∈ names, p.2 < n) (wanted : List String) :
    Keeps n (lift (wanted.mapM (lookup names))) fun _ rs => ∀ r ∈ rs, r < n :=
  keeps_lift fun _ _ _ hr => Outcome.mapM_forall (fun _ _ => lt_of_lookup h) hr

/-- Whatever is made is there. -/
theorem keeps_build (h : ∀ p ∈ names, p.2 < n) (source : Source) :
    Keeps n (build names source) fun m r => r < m := by
  have hany : ∀ {α : Type} (o : Outcome α), Keeps n (lift o) fun _ _ => True :=
    fun o => keeps_lift fun _ _ _ _ => trivial
  cases source with
  | column => exact (hany _).bind fun _ _ _ _ => keeps_alloc trivial
  | table name columns =>
    exact (keeps_lookups h columns).bind fun _ _ hm hr =>
      keeps_newTable (Members.below_ofRefs fun r hr' => (hr r hr').trans_le hm)
  | relationship r => exact keeps_newRelationship r
  | schema tables relationships =>
    refine (keeps_lookups h tables).bind fun m _ hm ht => ?_
    refine ((keeps_lookups h relationships).mono hm).bind fun k _ hk hr => ?_
    exact keeps_newSchema (fun r h => (ht r h).trans_le (hm.trans hk))
      fun r h => (hr r h).trans_le (hm.trans hk)
  | diagram schema =>
    exact (keeps_lookup h schema).bind fun _ _ hm hr => keeps_newDiagram (hr.trans_le hm) _ _ _ _
  | columnForm v => exact (hany _).bind fun _ _ _ _ => keeps_alloc trivial
  | tableForm v => exact (hany _).bind fun _ t _ _ => keeps_copyTable t
  | relationshipForm v => exact (hany _).bind fun _ r _ _ => keeps_newRelationship r
  | schemaForm v => exact (hany _).bind fun _ s _ _ => keeps_copySchema s
  | diagramForm v => exact (hany _).bind fun _ d _ _ => keeps_copyDiagram d
  | rectForm v => exact (hany _).bind fun _ _ _ _ => keeps_alloc trivial

/-- The answer names only objects at the first `m` places. -/
def Answer.Names (m : ℕ) (a : Answer) : Prop := ∀ p ∈ a.named, p.2 < m

theorem keeps_formOf {r : Ref} (h : r < n) (name : Option String) :
    Keeps n (formOf r name) Answer.Names := by
  refine keeps_get.bind fun k s hk _ => ?_
  refine (keeps_lift (P := fun _ _ => True) fun _ _ _ _ => trivial).bind fun l v hl _ => ?_
  refine keeps_pure fun m hm p hp => ?_
  obtain ⟨_, -, rfl⟩ := Option.map_eq_some_iff.1 hp
  exact h.trans_le (hk.trans (hl.trans hm))

theorem keeps_changing (h : ∀ p ∈ names, p.2 < n) (target : String) {change : Ref → Change Unit}
    (hc : ∀ m r, n ≤ m → r < m → Keeps m (change r) fun _ _ => True) :
    Keeps n (changing names target change) Answer.Names :=
  (keeps_lookup h target).bind fun m r hm hr => (hc m r hm (hr.trans_le hm)).bind
    fun _ _ hk _ => keeps_formOf (hr.trans_le (hm.trans hk)) none

theorem keeps_asking (h : ∀ p ∈ names, p.2 < n) (target : String)
    (ask : Store → Ref → Outcome Json) : Keeps n (asking names target ask) Answer.Names :=
  (keeps_lookup h target).bind fun _ _ _ _ => keeps_get.bind fun _ _ _ _ =>
    (keeps_lift (P := fun _ _ => True) fun _ _ _ _ => trivial).bind fun _ _ _ _ =>
      keeps_pure fun _ _ => nofun

theorem keeps_finding (h : ∀ p ∈ names, p.2 < n) (target : String) (name : Option String)
    {find : Store → Ref → Outcome (Option Ref)}
    (hf : ∀ s : Store, s.Closed → ∀ r found, find s r = .ok (some found) →
      found < s.cells.length) : Keeps n (finding names target name find) Answer.Names := by
  refine (keeps_lookup h target).bind fun m r _ _ => keeps_get.bind fun k s _ hs => ?_
  have hfound : Keeps k (lift (find s r)) fun _ o => ∀ found ∈ o, found < k := by
    refine keeps_lift fun l o _ ho found hfound => ?_
    cases hfound
    exact (hf s hs.1 r found ho).trans_le hs.2
  refine hfound.bind fun l o hl ho => ?_
  cases o with
  | none => exact keeps_pure fun _ _ => nofun
  | some found => exact keeps_formOf ((ho found rfl).trans_le hl) name

theorem keeps_perform (h : ∀ p ∈ names, p.2 < n) (o : Step) :
    Keeps n (perform names o) Answer.Names := by
  cases o with
  | make name source => exact (keeps_build h source).bind fun _ _ _ hr => keeps_formOf hr name
  | markPrimaryKey target => exact keeps_changing h target fun _ r _ _ => keeps_changeColumn _ _ r
  | markForeignKey target =>
    exact keeps_changing h target fun _ r _ _ => keeps_changeColumn _ _ r
  | append target column =>
    exact keeps_changing h target fun m r hm hr =>
      keeps_append hr fun c hc => (lt_of_lookup h hc).trans_le hm
  | freeze target => exact keeps_changing h target fun _ r _ _ => keeps_freeze r
  | assign target field value =>
    exact keeps_changing h target fun _ _ _ hr => keeps_assign hr field value
  | column target wanted name =>
    refine keeps_finding h target name fun s hs r found hf => ?_
    obtain ⟨o, ho, hf⟩ := Outcome.bind_eq_ok.1 hf
    cases o with
    | none => cases hf
    | some found => cases hf; exact hs.column? ho
  | table target wanted name => exact keeps_finding h target name fun s hs r found => hs.table?
  | columnIndex target => exact keeps_asking h target _
  | isEmpty target => exact keeps_asking h target _
  | form target => exact keeps_asking h target _
  | shown target => exact keeps_asking h target _
  | same target other => exact keeps_asking h target _

end

theorem closed_empty : Closed empty := ⟨Store.closed_empty, nofun⟩

/-- A step leaves a closed session. -/
theorem Closed.step {s : Session} (h : s.Closed) (o : Step) : (s.step o).2.Closed := by
  obtain ⟨hc, hle, ha⟩ := keeps_perform h.names o s.store h.store le_rfl
  have hnames : ∀ p ∈ s.names, p.2 < ((perform s.names o).run s.store).2.cells.length :=
    fun p hp => (h.names p hp).trans_le hle
  unfold Session.step
  split
  · rename_i a store hr
    rw [hr] at hc ha hnames
    refine ⟨hc, fun p hp => ?_⟩
    rcases List.mem_append.1 hp with hp | hp
    · exact ha a rfl p (Option.mem_toList.1 hp)
    · exact hnames p hp
  · rename_i e store hr
    rw [hr] at hc hnames
    exact ⟨hc, hnames⟩

/-- The session after the steps. -/
def after (s : Session) (steps : List Step) : Session := steps.foldl (fun s o => (s.step o).2) s

/-- **Sessions stay closed.** -/
theorem Closed.after {s : Session} (h : s.Closed) (steps : List Step) : (s.after steps).Closed :=
  List.foldlRecOn steps _ h fun _ hs o _ => hs.step o

end Store.Session

end ErCanvas
