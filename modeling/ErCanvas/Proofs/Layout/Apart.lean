import Mathlib.Data.Finset.Card
import Mathlib.Data.Finset.Image
import Mathlib.Order.Interval.Set.Defs
import ErCanvas.Proofs.Connector.Card
import ErCanvas.Proofs.Layout
import ErCanvas.Proofs.Number.Root

/-! # The default layout keeps the cards apart

The cards of tables with distinct ids are put one after the other on the places of the grid, row by row. Two
places differ by a column or by a row, and a card is narrower than a column of the grid; it is lower than a
row if its table has at most eight columns.

* `positions_eq`: every table has the place that its number in the list says.
* `card_columns`, `card_rows_le`: the columns and rows that are used.
* `Grid.Box.region`, `region_card_inter`: cards that have no point in common.
* `cards_apart`: the layout of a schema. -/

namespace ErCanvas

/-! ### Boxes without common points -/

namespace Grid.Box

/-- The points of the plane that the box covers, the edges included. -/
def region (b : Box) : Set (ℚ × ℚ) := Set.Icc (b.x, b.y) (b.x + b.width, b.y + b.height)

theorem region_inter_eq_empty {b c : Box}
    (h : (b.x + b.width < c.x ∨ c.x + c.width < b.x) ∨ b.y + b.height < c.y ∨ c.y + c.height < b.y) :
    b.region ∩ c.region = ∅ := by
  rw [Set.eq_empty_iff_forall_notMem]
  rintro ⟨u, v⟩ ⟨⟨⟨hbx, hby⟩, hbx', hby'⟩, ⟨hcx, hcy⟩, hcx', hcy'⟩
  have hcast : ((b.x + b.width < (c.x : ℚ) ∨ c.x + c.width < (b.x : ℚ)) ∨
      b.y + b.height < (c.y : ℚ) ∨ c.y + c.height < (b.y : ℚ)) := by exact_mod_cast h
  rcases hcast with (h | h) | h | h
  · exact absurd (hcx.trans hbx') (not_le.2 h)
  · exact absurd (hbx.trans hcx') (not_le.2 h)
  · exact absurd (hcy.trans hby') (not_le.2 h)
  · exact absurd (hby.trans hcy') (not_le.2 h)

end Grid.Box

namespace Layout

open Grid (Box)

variable {ids : List String} {k i j : ℕ}

/-! ### Places of the grid -/

/-- **Two places of the grid** are a column or a row apart. -/
theorem place_apart (k : ℕ) (h : i ≠ j) :
    ((place k i).1 + columnSpacing ≤ (place k j).1 ∨ (place k j).1 + columnSpacing ≤ (place k i).1) ∨
      (place k i).2 + rowSpacing ≤ (place k j).2 ∨ (place k j).2 + rowSpacing ≤ (place k i).2 := by
  have hne : i % k ≠ j % k ∨ i / k ≠ j / k := by
    by_contra! heq
    exact h (by rw [← Nat.div_add_mod i k, ← Nat.div_add_mod j k, heq.1, heq.2])
  simp only [place, columnSpacing, rowSpacing]
  omega

/-- Cards with at most eight rows have no point in common at different places of the grid. -/
theorem region_card_inter {m n : ℕ} (h : i ≠ j) (hm : m ≤ 8) (hn : n ≤ 8) :
    (Card.box (place k i) m).region ∩ (Card.box (place k j) n).region = ∅ := by
  have hplaces := place_apart k h
  refine Box.region_inter_eq_empty ?_
  simp only [Card.box, Card.width, Card.headerHeight, Card.rowHeight, columnSpacing, rowSpacing] at hplaces ⊢
  omega

/-! ### One place after the other -/

theorem foldl_insert {l : List (String × ℕ)} {ps : List (String × Place)}
    (h : (ps.map Prod.fst ++ l.map Prod.fst).Nodup) :
    l.foldl (fun acc e => Json.insert e.1 (place k e.2) acc) ps = ps ++ l.map fun e => (e.1, place k e.2) := by
  induction l generalizing ps with
  | nil => exact (List.append_nil ps).symm
  | cons e l ih =>
    have hnew : e.1 ∉ ps.map Prod.fst := fun hmem =>
      (List.nodup_append.1 h).2.2 _ hmem _ (List.mem_cons_self ..) rfl
    rw [List.foldl_cons, Json.insert_fresh hnew, ih (by simpa using h), List.map_cons, List.append_assoc]
    rfl

/-- **Every table has the place that its number in the list says**, if no two have the same id. -/
theorem positions_eq (h : ids.Nodup) :
    positions ids = ids.zipIdx.map fun e => (e.1, place (side ids.length) e.2) := by
  have hids : (ids.zipIdx.map Prod.fst).Nodup := by rwa [List.zipIdx_map_fst]
  exact foldl_insert hids

theorem ids_positions (h : ids.Nodup) : (positions ids).map Prod.fst = ids := by
  rw [positions_eq h, List.map_map]
  exact List.zipIdx_map_fst 0 ids

theorem places_positions (h : ids.Nodup) :
    (positions ids).map Prod.snd = (List.range ids.length).map (place (side ids.length)) := by
  rw [positions_eq h, List.map_map, List.range_eq_range', ← List.zipIdx_map_snd 0 ids, List.map_map]
  rfl

theorem mem_positions (h : ids.Nodup) (hi : i < ids.length) :
    (ids[i], place (side ids.length) i) ∈ positions ids := by
  rw [positions_eq h]
  exact List.mem_map.2 ⟨(ids[i], i), List.mem_zipIdx_iff_getElem?.2 (List.getElem?_eq_getElem hi), rfl⟩

/-! ### Columns and rows -/

/-- The columns in which there are cards, by their left edges. -/
def columns (ps : List (String × Place)) : Finset ℤ := (ps.map fun e => e.2.1).toFinset

/-- The rows in which there are cards, by their upper edges. -/
def rows (ps : List (String × Place)) : Finset ℤ := (ps.map fun e => e.2.2).toFinset

theorem isLeast_side (n : ℕ) : IsLeast {k | n ≤ k * k} (side n) :=
  ⟨le_side_mul_side n, fun _ hm => side_le hm⟩

theorem side_pos {n : ℕ} (hn : 0 < n) : 0 < side n := by
  refine Nat.pos_of_ne_zero fun h => ?_
  have hle := le_side_mul_side n
  rw [h] at hle
  omega

/-- Coordinates of the places that are used. -/
theorem toFinset_positions (h : ids.Nodup) (f : Place → ℤ) :
    ((positions ids).map fun e => f e.2).toFinset =
      (Finset.range ids.length).image fun i => f (place (side ids.length) i) := by
  have hmap : ((positions ids).map fun e => f e.2) =
      ((List.range ids.length).map (place (side ids.length))).map f := by
    rw [← places_positions h, List.map_map]
    rfl
  ext x
  simp [hmap]

/-- **All columns are used:** the first row is full. -/
theorem card_columns (h : ids.Nodup) : (columns (positions ids)).card = side ids.length := by
  have hside : side ids.length ≤ ids.length := side_le (Nat.le_mul_self _)
  have hcolumns : columns (positions ids) =
      (Finset.range (side ids.length)).image fun c : ℕ => origin + c * columnSpacing := by
    rw [columns, toFinset_positions h Prod.fst]
    ext x
    simp only [Finset.mem_image, Finset.mem_range]
    constructor
    · rintro ⟨i, hi, rfl⟩
      exact ⟨i % side ids.length, Nat.mod_lt i (side_pos (Nat.zero_lt_of_lt hi)), rfl⟩
    · rintro ⟨c, hc, rfl⟩
      exact ⟨c, hc.trans_le hside, by rw [place, Nat.mod_eq_of_lt hc]⟩
  have hinj : Function.Injective fun c : ℕ => origin + (c : ℤ) * columnSpacing := by
    intro c d hcd
    simp only [columnSpacing] at hcd
    omega
  rw [hcolumns, Finset.card_image_of_injective _ hinj, Finset.card_range]

/-- **There are no more rows than columns.** -/
theorem card_rows_le (h : ids.Nodup) : (rows (positions ids)).card ≤ side ids.length := by
  have hrows : rows (positions ids) ⊆
      (Finset.range (side ids.length)).image fun r : ℕ => origin + r * rowSpacing := by
    rw [rows, toFinset_positions h Prod.snd]
    intro y hy
    obtain ⟨i, hi, rfl⟩ := Finset.mem_image.1 hy
    have hi := (Finset.mem_range.1 hi).trans_le (le_side_mul_side _)
    exact Finset.mem_image.2 ⟨i / side ids.length, Finset.mem_range.2 (Nat.div_lt_of_lt_mul hi), rfl⟩
  calc (rows (positions ids)).card ≤ _ := Finset.card_le_card hrows
    _ ≤ (Finset.range (side ids.length)).card := Finset.card_image_le
    _ = side ids.length := Finset.card_range _

/-! ### Cards -/

section

variable {s : Schema Json}

/-- The rectangle of a table's card in the default layout. -/
def card (s : Schema Json) (t : Table Json) : Outcome Rect := do Card.rect t (← (ofSchema s).entry t.id)

theorem card_eq (hn : (s.tables.map Table.id).Nodup) (hi : i < s.tables.length) :
    card s s.tables[i] =
      .ok (Card.box (place (side s.tables.length) i) s.tables[i].columns.length).rect := by
  have hmem := mem_positions hn (i := i) (by rwa [List.length_map])
  simp only [List.getElem_map, List.length_map] at hmem
  obtain ⟨hdistinct, entries, heq, hplaces⟩ := arePlaces_ofSchema s
  obtain ⟨v, hfind, hv⟩ := find?_of_mem hplaces hdistinct hmem
  have hentry : (ofSchema s).entry s.tables[i].id = .ok v := by
    simp only [heq, Json.entry, hfind]
  rw [card, hentry, Outcome.ok_bind, Card.rect_box hv]

/-- **The default layout keeps the cards apart.** Tables with distinct ids have one position each, in their
order. The grid has the least number of columns whose square is not below the number of tables, which is the
rounded root of that number, rounded up; all columns and no more rows than columns are used. If no table has
more than eight columns, no two cards have a point in common, not even on their edges. -/
theorem cards_apart (hne : s.tables ≠ []) (hn : (s.tables.map Table.id).Nodup)
    (hlt : s.tables.length < 2 ^ 52) :
    ∃ k, IsLeast {k | s.tables.length ≤ k * k} k ∧
      (∀ r, Binary64.Nearest √s.tables.length r → ⌈r⌉ = k) ∧
      (positions (s.tables.map Table.id)).map Prod.fst = s.tables.map Table.id ∧
      (columns (positions (s.tables.map Table.id))).card = k ∧
      (rows (positions (s.tables.map Table.id))).card ≤ k ∧
      ((∀ t ∈ s.tables, t.columns.length ≤ 8) → ∀ t ∈ s.tables, ∀ u ∈ s.tables, t ≠ u →
        ∃ b c : Box, card s t = .ok b.rect ∧ card s u = .ok c.rect ∧ b.region ∩ c.region = ∅) := by
  have hside : side (s.tables.map Table.id).length = side s.tables.length := by rw [List.length_map]
  have hleast := isLeast_side s.tables.length
  refine ⟨_, hleast, fun r hr => hr.ceil_eq (List.length_pos_iff.2 hne) hlt hleast, ids_positions hn,
    (card_columns hn).trans hside, (card_rows_le hn).trans_eq hside, ?_⟩
  intro hcolumns t ht u hu htu
  obtain ⟨i, hi, rfl⟩ := List.getElem_of_mem ht
  obtain ⟨j, hj, rfl⟩ := List.getElem_of_mem hu
  have hij : i ≠ j := by
    rintro rfl
    exact htu rfl
  exact ⟨_, _, card_eq hn hi, card_eq hn hj, region_card_inter hij (hcolumns _ ht) (hcolumns _ hu)⟩

/-- Three tables, the first one with the greatest number of columns for which there is room. -/
def trio : Schema Json :=
  ⟨[⟨"Users", List.replicate 8 (Column.make (.str "id") (.str "int") true false true none)⟩, ⟨"posts", []⟩,
    ⟨"Tags", []⟩], []⟩

theorem cards_apart_trio : (∃ r, Binary64.Nearest √trio.tables.length r ∧ ⌈r⌉ = 2) ∧
    (columns (positions (trio.tables.map Table.id))).card = 2 ∧
    (rows (positions (trio.tables.map Table.id))).card ≤ 2 ∧
    ∃ b c : Box, card trio trio.tables[0] = .ok b.rect ∧ card trio trio.tables[2] = .ok c.rect ∧
      b.region ∩ c.region = ∅ := by
  obtain ⟨k, hk, hroot, -, hcolumns, hrows, hapart⟩ :=
    cards_apart (s := trio) (List.cons_ne_nil _ _) (by decide) (by decide)
  obtain rfl : k = 2 := hk.unique (isLeast_side 3)
  obtain ⟨r, hr⟩ := Binary64.exists_nearest (Real.sqrt_nonneg trio.tables.length)
  have hne : trio.tables[0] ≠ trio.tables[2] := fun h => absurd (congrArg Table.name h) (by decide)
  exact ⟨⟨r, hr, hroot r hr⟩, hcolumns, hrows,
    hapart (by decide) _ (.head _) _ (.tail _ (.tail _ (.head _))) hne⟩

end

end Layout

end ErCanvas
