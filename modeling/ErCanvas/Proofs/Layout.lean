import Mathlib.Algebra.Order.Ring.Int
import ErCanvas.Layout
import ErCanvas.Proofs.Canvas.Place
import ErCanvas.Proofs.Json.Read

/-! # Where the default layout puts the cards

The default layout has one position for each id, at whole coordinates. Its grid has as few columns as it
can have for being at least as wide as high, and so no more rows than columns; the positions stay
near the origin for all numbers of tables that there can be.

* `le_side_mul_side`, `side_le`: the number of columns.
* `arePlaces_ofSchema`, `mem_ids_positions`: one place for each id.
* `near_positions`: how far away a card is at most. -/

namespace ErCanvas.Layout

/-! ### The number of columns -/

section

variable {n fuel k m : ℕ}

theorem leastSide_le (hk : k ≤ m) (hm : n ≤ m * m) : leastSide n fuel k ≤ m := by
  induction fuel generalizing k with
  | zero => exact hk
  | succ fuel ih =>
    rw [leastSide]
    split
    · exact hk
    · rename_i hn
      have hne : k ≠ m := fun h => hn (h ▸ hm)
      exact ih (Nat.lt_of_le_of_ne hk hne)

theorem le_leastSide_mul (h : n ≤ (k + fuel) * (k + fuel)) :
    n ≤ leastSide n fuel k * leastSide n fuel k := by
  induction fuel generalizing k with
  | zero => exact h
  | succ fuel ih =>
    rw [leastSide]
    split
    · assumption
    · refine ih ?_
      rwa [Nat.add_assoc, Nat.add_comm 1 fuel]

theorem le_side_mul_side (n : ℕ) : n ≤ side n * side n :=
  le_leastSide_mul (by rw [Nat.zero_add]; exact Nat.le_mul_self n)

theorem side_le (h : n ≤ m * m) : side n ≤ m := leastSide_le (Nat.zero_le m) h

end

/-! ### One position for each id -/

variable {ids : List String}

theorem nodup_positions (ids : List String) : ((positions ids).map Prod.fst).Nodup :=
  List.foldlRecOn (motive := fun ps : List (String × Place) => (ps.map Prod.fst).Nodup) _ _
    List.nodup_nil fun _ h _ _ => Json.nodup_insert h

theorem arePlaces_toJson {ps : List (String × Place)} (h : (ps.map Prod.fst).Nodup) :
    ArePlaces (toJson ps) ps := by
  refine ⟨h, _, rfl, ?_⟩
  rw [List.forall₂_map_left_iff, List.forall₂_same]
  exact fun e _ => ⟨rfl, isPlace_toJson e.2⟩

/-- **The default positions** are places at distinct ids. -/
theorem arePlaces_ofSchema {ν : Type} (s : Schema ν) :
    ArePlaces (ofSchema s) (positions (s.tables.map Table.id)) :=
  arePlaces_toJson (nodup_positions _)

/-- **Every id has a position.** -/
theorem mem_ids_positions {id : String} (h : id ∈ ids) : id ∈ (positions ids).map Prod.fst := by
  have hfold : ∀ (l : List (String × ℕ)) (ps : List (String × Place)),
      id ∈ ps.map Prod.fst ∨ id ∈ l.map Prod.fst →
        id ∈ (l.foldl (fun acc e => Json.insert e.1 (place (side ids.length) e.2) acc) ps).map Prod.fst := by
    intro l
    induction l with
    | nil => exact fun ps h => h.resolve_right List.not_mem_nil
    | cons e l ih =>
      refine fun ps h => ih _ ?_
      rw [Json.mem_keys_insert]
      rw [List.map_cons, List.mem_cons] at h
      tauto
  have hindexed : (ids.zipIdx).map Prod.fst = ids := List.zipIdx_map_fst 0 ids
  exact hfold ids.zipIdx [] (.inr (hindexed.symm ▸ h))

/-! ### How far away a card is -/

theorem near_place {columns index : ℕ} (hcolumns : columns ≤ 2 ^ 32) (h : index < columns * columns) :
    |(place columns index).1| ≤ 2 ^ 50 ∧ |(place columns index).2| ≤ 2 ^ 50 := by
  have hpos : 0 < columns := Nat.pos_of_ne_zero fun h0 => by simp [h0] at h
  have hx : index % columns < columns := Nat.mod_lt _ hpos
  have hy : index / columns < columns := Nat.div_lt_of_lt_mul h
  rw [abs_le, abs_le]
  simp only [place, origin, columnSpacing, rowSpacing]
  generalize index % columns = column at hx ⊢
  generalize index / columns = row at hy ⊢
  omega

/-- **No card is far from the origin.** -/
theorem near_positions (h : ids.length < 2 ^ 63) :
    ∀ e ∈ positions ids, |e.2.1| ≤ 2 ^ 50 ∧ |e.2.2| ≤ 2 ^ 50 := by
  -- a grid with sides of 2 ^ 32 has room for more cards than there can be
  have hside : side ids.length ≤ 2 ^ 32 := side_le (by omega)
  refine List.foldlRecOn (motive := fun ps : List (String × Place) =>
    ∀ e ∈ ps, |e.2.1| ≤ 2 ^ 50 ∧ |e.2.2| ≤ 2 ^ 50) _ _ (by simp) ?_
  rintro ps hps ⟨id, i⟩ hi
  have hi : i < ids.length := (List.mem_zipIdx' hi).1
  exact Json.forall_mem_insert (P := fun p : Place => |p.1| ≤ 2 ^ 50 ∧ |p.2| ≤ 2 ^ 50)
    (near_place hside (hi.trans_le (le_side_mul_side _))) hps

end ErCanvas.Layout
