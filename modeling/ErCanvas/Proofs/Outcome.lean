import Mathlib.Data.List.Forall2
import ErCanvas.Fault

/-! # Chains of operations that may fail

How the result of a chain of operations comes from the results of its parts. -/

namespace ErCanvas.Outcome

variable {ε α β : Type}

@[simp] theorem ok_bind (a : α) (f : α → Except ε β) : (Except.ok a >>= f) = f a := rfl

@[simp] theorem error_bind (e : ε) (f : α → Except ε β) :
    ((Except.error e : Except ε α) >>= f) = .error e := rfl

@[simp] theorem pure_eq (a : α) : (pure a : Except ε α) = .ok a := rfl

/-- A chain succeeds when its first part does and the rest does with the result. -/
theorem bind_eq_ok {x : Except ε α} {f : α → Except ε β} {b : β} :
    (x >>= f) = .ok b ↔ ∃ a, x = .ok a ∧ f a = .ok b := by
  cases x with
  | error e => simp
  | ok a => simp

/-- Chains agree if their later parts do. -/
theorem bind_congr {x : Except ε α} {f g : α → Except ε β} (h : ∀ a, f a = g a) :
    (x >>= f) = (x >>= g) := by
  rw [funext h]

theorem mapError_eq_ok {ε' : Type} {f : ε → ε'} {x : Except ε α} {a : α} :
    x.mapError f = .ok a ↔ x = .ok a := by
  cases x with
  | error e => simp [Except.mapError]
  | ok a => simp [Except.mapError]

/-- A test that is only made after another has succeeded. -/
theorem ok_and (p q : Prop) [Decidable p] [Decidable q] :
    (if decide p then .ok (decide q) else .ok false : Except ε Bool) = .ok (decide (p ∧ q)) := by
  by_cases hp : p
  · simp [hp]
  · simp [hp]

/-- A list succeeds when each of its parts does. -/
theorem mapM_eq_ok {f : α → Except ε β} {xs : List α} {ys : List β} :
    xs.mapM f = .ok ys ↔ List.Forall₂ (fun x y => f x = .ok y) xs ys := by
  induction xs generalizing ys with
  | nil => simp [List.forall₂_nil_left_iff, eq_comm]
  | cons x xs ih =>
    rw [List.mapM_cons, List.forall₂_cons_left_iff]
    simp only [bind_eq_ok, ih, pure_eq, Except.ok.injEq]
    constructor
    · rintro ⟨y, hy, zs, hz, rfl⟩
      exact ⟨y, zs, hy, hz, rfl⟩
    · rintro ⟨y, zs, hy, hz, rfl⟩
      exact ⟨y, hy, zs, hz, rfl⟩

/-- A list succeeds if every part does. -/
theorem exists_mapM {f : α → Except ε β} {xs : List α} (h : ∀ x ∈ xs, ∃ y, f x = .ok y) :
    ∃ ys, xs.mapM f = .ok ys := by
  induction xs with
  | nil => exact ⟨[], rfl⟩
  | cons x xs ih =>
    obtain ⟨⟨y, hy⟩, h⟩ := List.forall_mem_cons.1 h
    obtain ⟨ys, hys⟩ := ih h
    exact ⟨y :: ys, by rw [List.mapM_cons, hy, hys]; rfl⟩

/-- Operations that agree on the parts of a list agree on the list. -/
theorem mapM_congr {f g : α → Except ε β} {xs : List α} (h : ∀ x ∈ xs, f x = g x) :
    xs.mapM f = xs.mapM g := by
  induction xs with
  | nil => rfl
  | cons x xs ih =>
    obtain ⟨hx, hxs⟩ := List.forall_mem_cons.1 h
    rw [List.mapM_cons, List.mapM_cons, hx, ih hxs]

/-- Everything in a list that is related to another, item by item, is related to one of its items. -/
theorem exists_of_forall₂ {R : α → β → Prop} {xs : List α} {ys : List β} (h : List.Forall₂ R xs ys)
    {y : β} (hy : y ∈ ys) : ∃ x ∈ xs, R x y := by
  induction h with
  | nil => cases hy
  | cons h _ ih =>
    rcases List.mem_cons.1 hy with rfl | hy
    · exact ⟨_, .head _, h⟩
    · obtain ⟨x, hx, hxy⟩ := ih hy
      exact ⟨x, .tail _ hx, hxy⟩

/-- Every result of a list is the result of one of its parts. -/
theorem exists_of_mapM {f : α → Except ε β} {xs : List α} {ys : List β} (h : xs.mapM f = .ok ys)
    {y : β} (hy : y ∈ ys) : ∃ x ∈ xs, f x = .ok y :=
  exists_of_forall₂ (mapM_eq_ok.1 h) hy

/-- What every single result satisfies, every result of a list does. -/
theorem mapM_forall {P : β → Prop} {f : α → Except ε β} (hf : ∀ a b, f a = .ok b → P b)
    {xs : List α} {ys : List β} (h : xs.mapM f = .ok ys) : ∀ y ∈ ys, P y := by
  intro y hy
  obtain ⟨x, -, hx⟩ := exists_of_mapM h hy
  exact hf x y hx

end ErCanvas.Outcome
