import ErCanvas.Proofs.Connector.Drawn

/-! # Where connectors are attached

A connector leaves the card of its source and enters the card of its target at opposite edges, both times at
the height of a row: the one of the first column that has the name. Of the two ways to do so it takes the one
with the shorter horizontal run, and leaves to the right where both are the same.

* `Connector.Stands`: what the names of a table and of a column lead to, in whole numbers.
* `Connector.exists_stands`: a connector joins two cards at two rows.
* `Connector.Attached`: the point stands on an edge of a card, beside a row.
* `Connector.ends_attached`: both ends of a connector, and its run. -/

namespace ErCanvas

open Grid (Box)

variable {s : Schema Json} {positions : Json} {ps : List (String × Place)} {r : Relationship Json}
  {c : Connector}

namespace Connector

/-! ### Ends in whole numbers -/

/-- The names of a table and of a column lead to a row, whose card is at a place and which is at a whole
height. -/
structure Stands (s : Schema Json) (positions : Json) (ps : List (String × Place)) (table column : Json)
    (t : Table Json) (v : Json) (row : ℕ) (p : Place) (y : ℤ) : Prop extends
    Leads s positions table column t v row where
  mem : (t.id, p) ∈ ps
  place : IsPlace v p
  height : Card.rowCenterY v (.int row) = .ok (.float (.num y))
  settled : (Binary64.num y).Settled
  bound : |y| ≤ 2 ^ 71
  near : row ≤ 2 ^ 50 → |y - Card.center p row| < 12

section

variable {table column : Json} {t source target : Table Json} {v v' : Json} {row row' : ℕ} {p p' : Place}
  {y y' : ℤ}

theorem Leads.exists_stands (h : Leads s positions table column t v row) (hps : ArePlaces positions ps)
    (hm : Moderate s ps) : ∃ p y, Stands s positions ps table column t v row p y := by
  obtain ⟨p, hmem, hp⟩ := isPlace_of_position? hps h.position_eq
  have hrow := (lt_of_columnIndex? h.row_eq).trans (hm.columns t (mem_of_table? h.table_eq))
  obtain ⟨y, hy, hsettled, hbound, hnear⟩ := Card.exists_rowCenterY hp (hm.places _ hmem).2 hrow
  exact ⟨p, y, h, hmem, hp, hy, hsettled, hbound, hnear⟩

/-- Between two rows there is the connector that joins their cards. -/
theorem Stands.of?_eq (hm : Moderate s ps)
    (h : Stands s positions ps r.fromTable r.fromColumn source v row p y)
    (h' : Stands s positions ps r.toTable r.toColumn target v' row' p' y') (n n' : ℕ) :
    of? s positions r = .ok (some (joining (Card.box p n) (Card.box p' n') y y')) := by
  refine of?_eq_some_iff.2 ⟨source, v, row, target, v', row', h.toLeads, h'.toLeads, ?_⟩
  exact between_eq_joining h.place h'.place (hm.places _ h.mem).1 (hm.places _ h'.mem).1 h.height h'.height
    n n'

/-- **A connector joins two cards** at two rows. -/
theorem exists_stands (hps : ArePlaces positions ps) (hm : Moderate s ps)
    (hc : of? s positions r = .ok (some c)) : ∃ source v row p y target v' row' p' y',
      Stands s positions ps r.fromTable r.fromColumn source v row p y ∧
        Stands s positions ps r.toTable r.toColumn target v' row' p' y' ∧
        c = joining (Card.box p source.columns.length) (Card.box p' target.columns.length) y y' := by
  obtain ⟨source, v, row, target, v', row', h, h', -⟩ := of?_eq_some_iff.1 hc
  obtain ⟨p, y, h⟩ := h.exists_stands hps hm
  obtain ⟨p', y', h'⟩ := h'.exists_stands hps hm
  refine ⟨source, v, row, p, y, target, v', row', p', y', h, h', ?_⟩
  exact Option.some.inj (Except.ok.inj (hc.symm.trans (h.of?_eq hm h' _ _)))

end

end Connector

/-! ### Rows -/

/-- Both values are names, and the same one; case does not count. -/
def Json.SameName (v w : Json) : Prop := ∃ a b, v = .str a ∧ w = .str b ∧ sameName a b = true

theorem Json.lower_eq_ok {v : Json} {id : String} : v.lower = .ok id ↔ ∃ a, v = .str a ∧ Text.lower a = id := by
  cases v <;> simp [Json.lower]

theorem Json.sameName_iff {v w : Json} {id : String} (hw : w.lower = .ok id) :
    v.SameName w ↔ v.lower = .ok id := by
  obtain ⟨b, rfl, rfl⟩ := Json.lower_eq_ok.1 hw
  simp [SameName, Json.lower_eq_ok, sameName]

/-- The row is that of the first column of the name. -/
def Table.IsRow (t : Table Json) (name : Json) (row : ℕ) : Prop :=
  ∃ before c after, t.columns = before ++ c :: after ∧ before.length = row ∧ c.name.SameName name ∧
    ∀ b ∈ before, ¬ b.name.SameName name

theorem columnIndexFrom_eq_some {wanted : String} {columns : List (Column Json)} {k row : ℕ}
    (h : columnIndexFrom wanted k columns = .ok (some row)) :
    ∃ before c after, columns = before ++ c :: after ∧ k + before.length = row ∧
      c.name.lower = .ok wanted ∧ ∀ b ∈ before, b.name.lower ≠ .ok wanted := by
  induction columns generalizing k with
  | nil => cases h
  | cons column columns ih =>
    obtain ⟨name, hname, h⟩ := Outcome.bind_eq_ok.1 h
    split at h
    · rename_i heq
      cases h
      exact ⟨[], column, columns, rfl, rfl, beq_iff_eq.1 heq ▸ hname, nofun⟩
    · rename_i hne
      obtain ⟨before, c, after, rfl, hrow, hc, hbefore⟩ := ih h
      have hcolumn : column.name.lower ≠ .ok wanted := fun heq =>
        hne (beq_iff_eq.2 (Except.ok.inj (hname.symm.trans heq)))
      refine ⟨column :: before, c, after, rfl, ?_, hc, List.forall_mem_cons.2 ⟨hcolumn, hbefore⟩⟩
      rw [← hrow, List.length_cons]
      omega

/-- **A column is looked for from the front**, and the first one of the name is found. -/
theorem Table.isRow_of_columnIndex? {t : Table Json} {name : Json} {row : ℕ}
    (h : t.columnIndex? name = .ok (some row)) : t.IsRow name row := by
  obtain ⟨wanted, hwanted, h⟩ := Outcome.bind_eq_ok.1 h
  obtain ⟨before, c, after, hcolumns, hrow, hc, hbefore⟩ := columnIndexFrom_eq_some h
  refine ⟨before, c, after, hcolumns, by omega, (Json.sameName_iff hwanted).2 hc, fun b hb => ?_⟩
  exact mt (Json.sameName_iff hwanted).1 (hbefore b hb)

/-! ### Edges and runs -/

namespace Connector

/-- The point stands on the right or on the left edge of the card of a table, and its height is between the
top and the bottom of the row of a column. -/
def Attached (s : Schema Json) (positions table column : Json) (b : Box) (right : Bool) (q : Point) : Prop :=
  ∃ t v row, ∃ y : ℤ, s.table? table = .ok (some t) ∧ position? positions t.id = .ok (some v) ∧
    Card.rect t v = .ok b.rect ∧ t.IsRow column row ∧
    q = ⟨.int (b.edge right), .num (.float (.num y))⟩ ∧
    (b.y + Card.headerHeight + row * Card.rowHeight < y ∧
      y < b.y + Card.headerHeight + (row + 1) * Card.rowHeight) ∧
    b.y < y ∧ y < b.y + b.height

/-- The horizontal run of a line that leaves the first box at its right edge, or at its left one, and enters
the second at the opposite edge. -/
def run (b b' : Box) (right : Bool) : ℤ := |b'.edge (!right) - b.edge right|

theorem Stands.attached {table column : Json} {t : Table Json} {v : Json} {row : ℕ} {p : Place} {y : ℤ}
    (h : Stands s positions ps table column t v row p y) (hfew : t.columns.length ≤ 2 ^ 50) (right : Bool) :
    Attached s positions table column (Card.box p t.columns.length) right
      ⟨.int ((Card.box p t.columns.length).edge right), .num (.float (.num y))⟩ := by
  have hrow := lt_of_columnIndex? h.row_eq
  have hnear := abs_lt.1 (h.near (by omega))
  rw [Card.center] at hnear
  refine ⟨t, v, row, y, h.table_eq, h.position_eq, Card.rect_box h.place t, Table.isRow_of_columnIndex? h.row_eq,
    rfl, ?_⟩
  simp only [Card.box, Card.headerHeight, Card.rowHeight] at hnear ⊢
  omega

/-- **A line leaves its source towards its target:** the other way to leave at one edge and enter at the
opposite one has no shorter run, and the line leaves to the right if both runs are the same. -/
theorem run_le (b b' : Box) (hwidth : b.width = b'.width) (hpos : 0 < b.width) :
    run b b' (b.x ≤ b'.x) ≤ run b b' (!decide (b.x ≤ b'.x)) ∧
      (run b b' true = run b b' false → b.x ≤ b'.x) := by
  have hright : run b b' true = |b'.x - (b.x + b.width)| := rfl
  have hleft : run b b' false = |b'.x + b'.width - b.x| := rfl
  by_cases hx : b.x ≤ b'.x
  · rw [decide_eq_true hx, Bool.not_true, hright, hleft]
    exact ⟨abs_le_abs (by omega) (by omega), fun _ => hx⟩
  · rw [decide_eq_false hx, Bool.not_false, hright, hleft]
    have hlt : |b'.x + b'.width - b.x| < |b'.x - (b.x + b.width)| := by
      rw [abs_of_neg (a := b'.x - (b.x + b.width)) (by omega), abs_lt]
      omega
    exact ⟨hlt.le, fun heq => absurd heq hlt.ne'⟩

/-- **Where a connector is attached:** to the cards of the two tables, at opposite edges and at the rows of
the two columns. The other way to do so has no shorter run, and the line leaves to the right if both runs
are the same. No memory holds a table of `2 ^ 50` columns; from about `2 ^ 52` on, heights are rounded by more
than half of a row. -/
theorem ends_attached (hps : ArePlaces positions ps) (hplaces : ∀ e ∈ ps, |e.2.1| ≤ 2 ^ 50 ∧ |e.2.2| ≤ 2 ^ 50)
    (hrows : ∀ t ∈ s.tables, t.columns.length ≤ 2 ^ 50) (h : of? s positions r = .ok (some c)) :
    ∃ b b', Attached s positions r.fromTable r.fromColumn b c.exitRight c.start ∧
      Attached s positions r.toTable r.toColumn b' (!c.exitRight) c.finish ∧
      run b b' c.exitRight ≤ run b b' (!c.exitRight) ∧
      (run b b' true = run b b' false → c.exitRight = true) := by
  have hm : Moderate s ps := ⟨fun t ht => (hrows t ht).trans_lt (by norm_num), hplaces⟩
  obtain ⟨source, v, row, p, y, target, v', row', p', y', hsource, htarget, rfl⟩ := exists_stands hps hm h
  obtain ⟨hle, hright⟩ := run_le (Card.box p source.columns.length) (Card.box p' target.columns.length) rfl
    (by decide : 0 < Card.width)
  refine ⟨_, _, hsource.attached (hrows _ (mem_of_table? hsource.table_eq)) _,
    htarget.attached (hrows _ (mem_of_table? htarget.table_eq)) _, hle, fun heq => ?_⟩
  exact decide_eq_true (hright heq)

end Connector

/-! Two cards one below the other, a little to the right of it. -/

def stackedRelationship : Relationship Json := ⟨.str "Posts", .str "USER_ID", .str "users", .str "id"⟩

def stacked : Schema Json :=
  ⟨[⟨"posts", [Column.make (.str "id") (.str "int") true false true none,
      Column.make (.str "user_id") (.str "int") false true true none]⟩,
    ⟨"Users", [Column.make (.str "ID") (.str "int") true false true none]⟩], [stackedRelationship]⟩

def stackedPlaces : List (String × Place) := [("posts", (100, 100)), ("users", (130, 350))]

def stackedPositions : Json :=
  .obj (stackedPlaces.map fun e => (e.1, e.2.point.toJson))

/-- The line leaves to the right, though its end is further left than its start. -/
def stackedConnector : Connector :=
  ⟨⟨.int 320, .num (.float (.num 172))⟩, ⟨.int 130, .num (.float (.num 398))⟩, true⟩

theorem arePlaces_stacked : ArePlaces stackedPositions stackedPlaces :=
  ⟨by decide, _, rfl, .cons ⟨rfl, isPlace_toJson _⟩ (.cons ⟨rfl, isPlace_toJson _⟩ .nil)⟩

theorem connector_stacked :
    Connector.of? stacked stackedPositions stackedRelationship = .ok (some stackedConnector) := by
  with_unfolding_all rfl

theorem ends_attached_stacked :
    Connector.of? stacked stackedPositions stackedRelationship = .ok (some stackedConnector) ∧
      ∃ b b', Connector.Attached stacked stackedPositions (.str "Posts") (.str "USER_ID") b true
          ⟨.int 320, .num (.float (.num 172))⟩ ∧
        Connector.Attached stacked stackedPositions (.str "users") (.str "id") b' false
          ⟨.int 130, .num (.float (.num 398))⟩ ∧
        Connector.run b b' true ≤ Connector.run b b' false := by
  obtain ⟨b, b', h, h', hle, -⟩ :=
    Connector.ends_attached arePlaces_stacked (by decide) (by decide) connector_stacked
  exact ⟨connector_stacked, b, b', h, h', hle⟩

end ErCanvas
