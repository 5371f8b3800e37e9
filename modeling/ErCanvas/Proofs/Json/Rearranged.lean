import Mathlib.Data.List.Forall2
import ErCanvas.Proofs.Json.RoundTrip

/-! # Documents up to the order of entries

A document may come back with the entries of its objects in another order. What is looked up by its key
is then found as before, up to the order of the entries inside it.

* `Rearranged`: the same document but for the order of entries.
* `Rearranged.find?`, `entry`, `entryD`: look-ups.
* `Fixed`: the values in which nothing can be rearranged.
* `Reads`: every rearrangement is read as the same. -/

namespace ErCanvas.Json

/-- The values differ in the order of entries only; keys that come in another order are distinct. -/
inductive Rearranged : Json → Json → Prop where
  | refl (v : Json) : Rearranged v v
  | arr {xs ys : List Json} (h : List.Forall₂ Rearranged xs ys) : Rearranged (.arr xs) (.arr ys)
  | obj {es es' es'' : List (String × Json)} (hn : (es.map Prod.fst).Nodup)
      (hk : es'.map Prod.fst = es.map Prod.fst)
      (h : List.Forall₂ Rearranged (es.map Prod.snd) (es'.map Prod.snd)) (hp : es'.Perm es'') :
    Rearranged (.obj es) (.obj es'')

variable {key : String} {es es' : List (String × Json)} {u v w : Json}

/-! ### Look-ups -/

theorem find?_eq_some_iff (hn : (es.map Prod.fst).Nodup) : find? key es = some v ↔ (key, v) ∈ es := by
  refine ⟨mem_of_find?, fun h => ?_⟩
  induction es with
  | nil => cases h
  | cons e es ih =>
    rw [List.map_cons, List.nodup_cons] at hn
    rw [find?]
    rcases List.mem_cons.1 h with rfl | h
    · exact if_pos rfl
    · have hne : e.1 ≠ key := fun heq => hn.1 (heq ▸ List.mem_map_of_mem (f := Prod.fst) h)
      rw [if_neg hne]
      exact ih hn.2 h

/-- The order of entries does not count where their keys are distinct. -/
theorem find?_perm (hn : (es.map Prod.fst).Nodup) (hp : es.Perm es') : find? key es = find? key es' := by
  ext v
  rw [find?_eq_some_iff hn, find?_eq_some_iff ((hp.map Prod.fst).nodup_iff.1 hn), hp.mem_iff]

theorem rel_find? {R : Json → Json → Prop} (hk : es'.map Prod.fst = es.map Prod.fst)
    (h : List.Forall₂ R (es.map Prod.snd) (es'.map Prod.snd)) :
    Option.Rel R (find? key es) (find? key es') := by
  induction es generalizing es' with
  | nil =>
    rw [List.map_eq_nil_iff.1 hk]
    exact .none
  | cons e es ih =>
    obtain ⟨e', es', rfl, hkey, hkeys⟩ := List.map_eq_cons_iff.1 hk
    rw [List.map_cons, List.map_cons, List.forall₂_cons] at h
    rw [find?, find?, hkey]
    split
    · exact .some h.1
    · exact ih hkeys h.2

/-- What is looked up in a rearranged object. -/
theorem Rearranged.find? (h : Rearranged (.obj es) w) :
    ∃ es', w = .obj es' ∧ ∀ key, Option.Rel Rearranged (Json.find? key es) (Json.find? key es') := by
  cases h with
  | refl =>
    refine ⟨es, rfl, fun key => ?_⟩
    cases Json.find? key es with
    | none => exact .none
    | some v => exact .some (.refl v)
  | obj hn hk h hp =>
    refine ⟨_, rfl, fun key => ?_⟩
    rw [← find?_perm (hk ▸ hn) hp]
    exact rel_find? hk h

theorem entry_eq_ok : v.entry key = .ok u ↔ ∃ es, v = .obj es ∧ Json.find? key es = some u := by
  cases v with
  | obj es =>
    rw [entry]
    cases hf : Json.find? key es with
    | none => simp [hf]
    | some v => simp [hf]
  | _ => simp [entry]

theorem entryD_eq_ok_iff {default : Json} : v.entryD key default = .ok u ↔
    ∃ es, v = .obj es ∧ (Json.find? key es).getD default = u := by
  cases v with
  | obj es => simp [entryD, entry?, Except.map]
  | _ => simp [entryD, entry?, Except.map]

theorem Rearranged.entry (h : Rearranged v w) (hv : v.entry key = .ok u) :
    ∃ u', w.entry key = .ok u' ∧ Rearranged u u' := by
  obtain ⟨es, rfl, hu⟩ := entry_eq_ok.1 hv
  obtain ⟨es', rfl, hfind⟩ := h.find?
  have hrel := hfind key
  rw [hu] at hrel
  generalize hu' : Json.find? key es' = found at hrel
  cases hrel with
  | some hr => exact ⟨_, entry_eq_ok.2 ⟨es', rfl, hu'⟩, hr⟩

theorem Rearranged.entryD {default : Json} (h : Rearranged v w) (hv : v.entryD key default = .ok u) :
    ∃ u', w.entryD key default = .ok u' ∧ Rearranged u u' := by
  obtain ⟨es, rfl, rfl⟩ := entryD_eq_ok_iff.1 hv
  obtain ⟨es', rfl, hfind⟩ := h.find?
  refine ⟨_, entryD_eq_ok_iff.2 ⟨es', rfl, rfl⟩, ?_⟩
  have hrel := hfind key
  generalize Json.find? key es = found at hrel ⊢
  generalize Json.find? key es' = found' at hrel ⊢
  cases hrel with
  | none => exact .refl default
  | some hr => exact hr

theorem Rearranged.items {xs : List Json} (h : Rearranged (.arr xs) w) :
    ∃ ys, w = .arr ys ∧ List.Forall₂ Rearranged xs ys := by
  cases h with
  | refl => exact ⟨xs, rfl, List.forall₂_same.2 fun v _ => .refl v⟩
  | arr h => exact ⟨_, rfl, h⟩

theorem Rearranged.isTruthy (h : Rearranged v w) : w.isTruthy = v.isTruthy := by
  cases h with
  | refl => rfl
  | arr h =>
    cases h with
    | nil => rfl
    | cons => rfl
  | @obj es es' es'' hn hk h hp =>
    have hlength : es''.length = es.length := by
      rw [← hp.length_eq, ← List.length_map (f := Prod.fst), hk, List.length_map]
    have hempty : es''.isEmpty = es.isEmpty := by
      rw [Bool.eq_iff_iff, List.isEmpty_iff_length_eq_zero, List.isEmpty_iff_length_eq_zero, hlength]
    rw [Json.isTruthy, hempty]
    rfl

/-! ### Values without entries -/

/-- Nothing can be rearranged in the value. -/
def Fixed (v : Json) : Prop := ∀ w, Rearranged v w → w = v

theorem fixed_null : Fixed .null := by
  rintro _ ⟨⟩
  rfl

theorem fixed_bool (b : Bool) : Fixed (.bool b) := by
  rintro _ ⟨⟩
  rfl

theorem fixed_num (n : Number) : Fixed (.num n) := by
  rintro _ ⟨⟩
  rfl

theorem fixed_str (s : String) : Fixed (.str s) := by
  rintro _ ⟨⟩
  rfl

theorem Fixed.entry (hu : Fixed u) (h : Rearranged v w) (hv : v.entry key = .ok u) :
    w.entry key = .ok u := by
  obtain ⟨u', hw, hr⟩ := h.entry hv
  rw [hw, hu u' hr]

theorem Fixed.entryD {default : Json} (hu : Fixed u) (h : Rearranged v w)
    (hv : v.entryD key default = .ok u) : w.entryD key default = .ok u := by
  obtain ⟨u', hw, hr⟩ := h.entryD hv
  rw [hw, hu u' hr]

/-! ### Reading -/

/-- Every rearrangement of the value is read as `a`. -/
def Reads {α : Type} (f : Json → Outcome α) (v : Json) (a : α) : Prop :=
  ∀ w, Rearranged v w → f w = .ok a

end ErCanvas.Json
