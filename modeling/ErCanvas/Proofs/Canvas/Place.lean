import Mathlib.Data.Int.Notation
import Mathlib.Data.List.Forall2
import ErCanvas.Canvas.Point

/-! # Places

A place is a position with whole coordinates. Places are given as values that hold their coordinates,
alone or at the ids of cards.

* `Place.point`: the point at a place.
* `IsPlace`, `ArePlaces`: the value, or each entry of the value, gives a place. -/

namespace ErCanvas

/-- A position with whole coordinates. -/
abbrev Place := ℤ × ℤ

namespace Place

/-- The place as a point. -/
def point (p : Place) : Point := ⟨.int p.1, .int p.2⟩

/-- The key of a place among others: those of its coordinates. -/
def key (p : Place) : Binary64 × Binary64 := ((Number.int p.1).key, (Number.int p.2).key)

theorem key_inj {p q : Place} : p.key = q.key ↔ p = q := by
  simp [key, Number.key, Prod.ext_iff]

end Place

/-! ### Places as values -/

/-- The value has the coordinates of a place, whatever else it has. -/
def IsPlace (v : Json) (p : Place) : Prop :=
  ∃ entries, v = .obj entries ∧ Json.find? "x" entries = some (.int p.1) ∧
    Json.find? "y" entries = some (.int p.2)

/-- The value has a place at each of the distinct ids of the list, in its order, and nothing else. -/
def ArePlaces (v : Json) (ps : List (String × Place)) : Prop :=
  (ps.map Prod.fst).Nodup ∧
    ∃ entries, v = .obj entries ∧ List.Forall₂ (fun e q => e.1 = q.1 ∧ IsPlace e.2 q.2) entries ps

theorem ofJson_isPlace {v : Json} {p : Place} (h : IsPlace v p) : Point.ofJson v = .ok p.point := by
  obtain ⟨entries, rfl, hx, hy⟩ := h
  simp only [Point.ofJson, Json.entry, hx, hy]
  rfl

theorem IsPlace.isTruthy {v : Json} {p : Place} (h : IsPlace v p) : v.isTruthy = true := by
  obtain ⟨_ | ⟨e, es⟩, rfl, hx, -⟩ := h
  · cases hx
  · rfl

theorem isPlace_toJson (p : Place) : IsPlace p.point.toJson p := ⟨_, rfl, rfl, rfl⟩

end ErCanvas
