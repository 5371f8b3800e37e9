import ErCanvas.Proofs.Connector.Card
import ErCanvas.Proofs.Number.Order

/-! # Connectors in whole numbers

With cards at moderate places, a connector has whole coordinates throughout: its ends stand on edges of the
two cards, at heights that are whole numbers even where they have been rounded.

* `Grid.Box.edge`: the edges of a card.
* `Connector.joining`: the connector between two boxes.
* `Card.exists_rowCenterY`: the height of a row, in its middle but for rounding.
* `Connector.between_eq_joining`: what is computed is the connector between the boxes of the cards. -/

namespace ErCanvas

open Grid (Box)

/-- Where the right or the left edge of a box is. -/
def Grid.Box.edge (b : Box) (right : Bool) : ℤ := if right then b.x + b.width else b.x

/-- The connector between two boxes, at given heights: it leaves to the right unless the other box is
further left. -/
def Connector.joining (b b' : Box) (y y' : ℤ) : Connector :=
  ⟨⟨.int (b.edge (b.x ≤ b'.x)), .num (.float (.num y))⟩,
    ⟨.int (b'.edge (!decide (b.x ≤ b'.x))), .num (.float (.num y'))⟩, b.x ≤ b'.x⟩

/-! ### Heights -/

section

variable {v v' : Json} {p p' : Place} {row row' : ℕ}

theorem Card.rowCenterY_eq_add (hp : IsPlace v p) : rowCenterY v (.int row) =
    (Number.int (p.2 + headerHeight + row * rowHeight)).add (.float (.num (12 : ℤ))) := by
  rw [rowCenterY, hp.entry_y]
  rfl

/-- **The height of a row** on a card at a moderate place is whole. Where there are not too many rows in
front of it, it lies between the top of the row and its bottom. -/
theorem Card.exists_rowCenterY (hp : IsPlace v p) (hy : |p.2| ≤ 2 ^ 50) (hrow : row < 2 ^ 63) :
    ∃ y : ℤ, rowCenterY v (.int row) = .ok (.float (.num y)) ∧ (Binary64.num y).Settled ∧ |y| ≤ 2 ^ 71 ∧
      (row ≤ 2 ^ 50 → |y - center p row| < 12) := by
  have hpos := abs_le.1 hy
  have hn : |p.2 + headerHeight + row * rowHeight| ≤ 2 ^ 70 := by
    rw [abs_le, headerHeight, rowHeight]
    omega
  obtain ⟨y, hadd, hsettled, hnear⟩ := Number.exists_int_add_float (k := 12)
    (hn.trans (by norm_num)) (by norm_num)
  have hnear : |y - center p row| * 2 ^ 53 ≤ 3 * (|p.2 + headerHeight + row * rowHeight| + 12) := hnear
  refine ⟨y, (rowCenterY_eq_add hp).trans hadd, hsettled, ?_, fun hfew => ?_⟩
  · have hcenter : |center p row| ≤ 2 ^ 70 + 12 := (abs_add_le _ 12).trans (add_le_add_left hn 12)
    have hsub := abs_sub_abs_le_abs_sub y (center p row)
    omega
  · have hn : |p.2 + headerHeight + row * rowHeight| ≤ 26 * 2 ^ 50 := by
      rw [abs_le, headerHeight, rowHeight]
      omega
    omega

/-! ### Ends -/

theorem Card.centerX_eq (hp : IsPlace v p) (hx : |p.1| ≤ 2 ^ 50) :
    centerX v = .ok (.float (.num (p.1 + 110 : ℤ))) := by
  have hx := abs_le.1 hx
  have hcenter : centerX v = (Number.int p.1).add (.float (.num (110 : ℤ))) := by
    rw [centerX, hp.entry_x]
    rfl
  rw [hcenter]
  exact Number.add_float (by omega) (by omega)

/-- **The connector between two rows** is the one between the boxes of the cards, at the heights of the
rows. -/
theorem Connector.between_eq_joining {y y' : ℤ} (hp : IsPlace v p) (hp' : IsPlace v' p')
    (hx : |p.1| ≤ 2 ^ 50) (hx' : |p'.1| ≤ 2 ^ 50)
    (hy : Card.rowCenterY v (.int row) = .ok (.float (.num y)))
    (hy' : Card.rowCenterY v' (.int row') = .ok (.float (.num y'))) (n n' : ℕ) :
    between v v' row row' = .ok (joining (Card.box p n) (Card.box p' n') y y') := by
  have hle : (Number.float (.num (p.1 + 110 : ℤ))).le (.float (.num (p'.1 + 110 : ℤ))) =
      decide (p.1 ≤ p'.1) := by
    have hcast : ((p.1 + 110 : ℤ) : ℚ) ≤ (p'.1 + 110 : ℤ) ↔ p.1 ≤ p'.1 :=
      Int.cast_le.trans (add_le_add_iff_right 110)
    exact decide_eq_decide.2 hcast
  rw [between, hy, Outcome.ok_bind, hy', Outcome.ok_bind, Card.centerX_eq hp hx, Outcome.ok_bind,
    Card.centerX_eq hp' hx', Outcome.ok_bind, hle]
  by_cases hright : p.1 ≤ p'.1
  · rw [if_pos (decide_eq_true hright), Card.rightX_eq hp, Card.leftX_eq hp']
    simp [joining, Card.box, Box.edge, hright]
  · rw [if_neg (by simpa using hright), Card.leftX_eq hp, Card.rightX_eq hp']
    simp [joining, Card.box, Box.edge, hright]

end

end ErCanvas
