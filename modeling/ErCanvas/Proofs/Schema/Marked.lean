import Mathlib.Data.List.Basic
import Mathlib.Data.Nat.Notation
import ErCanvas.Schema.Basic

/-! # Columns marked by name

A name marks the first column that has it, and no other. When several names mark columns one after the
other, and the marks change no names, a column gets the marks of those names whose first column it is,
in their order (`foldl_markFirst`).

* `IsFirst`: the place of the first column of a name. -/

namespace ErCanvas

/-- The first column of the name is at the place; case does not count. -/
def IsFirst (name : String) (cs : List (Column String)) (i : ℕ) : Prop :=
  cs.findIdx? (sameName ·.name name) = some i

instance (name : String) (cs : List (Column String)) (i : ℕ) : Decidable (IsFirst name cs i) :=
  inferInstanceAs (Decidable (_ = _))

variable {name : String} {cs ds : List (Column String)} {i : ℕ}

theorem isFirst_cons_zero {c : Column String} : IsFirst name (c :: cs) 0 ↔ sameName c.name name := by
  rw [IsFirst, List.findIdx?_cons]
  split
  · rename_i hc
    exact ⟨fun _ => hc, fun _ => rfl⟩
  · rename_i hc
    exact ⟨fun h => by simp at h, fun h => absurd h hc⟩

theorem isFirst_cons_succ {c : Column String} :
    IsFirst name (c :: cs) (i + 1) ↔ ¬ sameName c.name name ∧ IsFirst name cs i := by
  rw [IsFirst, IsFirst, List.findIdx?_cons]
  split
  · rename_i hc
    exact ⟨fun h => by simp at h, fun h => absurd hc h.1⟩
  · rename_i hc
    rw [Option.map_eq_some_iff]
    constructor
    · rintro ⟨j, hj, hi⟩
      exact ⟨hc, by rw [hj, Nat.succ.inj hi]⟩
    · exact fun h => ⟨i, h.2, rfl⟩

/-- Which column is the first of a name depends on the names alone. -/
theorem isFirst_congr (h : cs.map Column.name = ds.map Column.name) :
    IsFirst name cs i ↔ IsFirst name ds i := by
  have hnames : ∀ cs : List (Column String), cs.findIdx? (sameName ·.name name) =
      (cs.map Column.name).findIdx? (sameName · name) := fun cs => by
    rw [List.findIdx?_map]
    rfl
  rw [IsFirst, IsFirst, hnames cs, hnames ds, h]

/-- What depends on the places in a list need not, if it gives the same at each place. -/
theorem mapIdx_eq_map {α β : Type} {xs : List α} {f : ℕ → α → β} {g : α → β}
    (h : ∀ i x, xs[i]? = some x → f i x = g x) : xs.mapIdx f = xs.map g := by
  refine List.ext_getElem? fun i => ?_
  rw [List.getElem?_mapIdx, List.getElem?_map]
  cases hx : xs[i]? with
  | none => rfl
  | some x => rw [Option.map_some, Option.map_some, h i x hx]

/-! ### One mark -/

section

variable {change : Column String → Column String}

/-- **A mark** changes the first column of the name. -/
theorem markFirst_eq_mapIdx (name : String) (change : Column String → Column String)
    (cs : List (Column String)) : markFirst name change cs =
      cs.mapIdx fun i c => if IsFirst name cs i then change c else c := by
  induction cs with
  | nil => rfl
  | cons c cs ih =>
    rw [List.mapIdx_cons, markFirst]
    simp only [isFirst_cons_zero, isFirst_cons_succ]
    by_cases hc : sameName c.name name = true
    · have hrest : (cs.mapIdx fun i d => if ¬ sameName c.name name = true ∧ IsFirst name cs i then change d
          else d) = cs := by
        simp only [hc, not_true_eq_false, false_and, if_false]
        exact List.mapIdx_eq_iff.2 fun i => by simp
      rw [if_pos hc, if_pos hc, hrest]
    · simp only [hc, not_false_eq_true, true_and, if_false, Bool.false_eq_true]
      rw [ih]

theorem map_name_markFirst (h : ∀ c, (change c).name = c.name) :
    (markFirst name change cs).map Column.name = cs.map Column.name := by
  induction cs with
  | nil => rfl
  | cons c cs ih =>
    rw [markFirst]
    split
    · rw [List.map_cons, h, List.map_cons]
    · rw [List.map_cons, ih, List.map_cons]

end

/-! ### Several marks -/

/-- **Marks one after the other:** each column gets those of the names whose first column it is. -/
theorem foldl_markFirst {ms : List (String × (Column String → Column String))}
    (hms : ∀ m ∈ ms, ∀ c, (m.2 c).name = c.name) (cs : List (Column String)) :
    ms.foldl (fun cs m => markFirst m.1 m.2 cs) cs =
      cs.mapIdx fun i c => (ms.filter fun m => IsFirst m.1 cs i).foldl (fun c m => m.2 c) c := by
  induction ms generalizing cs with
  | nil => exact (List.mapIdx_eq_iff.2 fun i => by simp).symm
  | cons m ms ih =>
    obtain ⟨hm, hms⟩ := List.forall_mem_cons.1 hms
    have hfirst : ∀ name i, IsFirst name (markFirst m.1 m.2 cs) i ↔ IsFirst name cs i :=
      fun name i => isFirst_congr (map_name_markFirst hm)
    rw [List.foldl_cons, ih hms]
    simp only [hfirst]
    rw [markFirst_eq_mapIdx m.1 m.2 cs, List.mapIdx_mapIdx]
    refine congrArg (List.mapIdx · cs) (funext fun i => funext fun c => ?_)
    rw [List.filter_cons]
    by_cases hi : IsFirst m.1 cs i
    · simp only [hi, decide_true, if_true, List.foldl_cons, Function.comp_apply]
    · simp only [hi, decide_false, if_false, Function.comp_apply, Bool.false_eq_true]

end ErCanvas
