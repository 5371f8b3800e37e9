import Mathlib.Data.Set.List
import ErCanvas.Connector.Route
import ErCanvas.Proofs.Grid.Terrain
import ErCanvas.Proofs.Path.Smooth

/-! # Cards at whole positions

What is drawn when the positions of the cards are whole: the rectangles of cards are boxes, and the
lines of relationships begin and end at whole places.

* `Card.box`, `Card.rect_box`: the box of a card.
* `obstacles_eq`: the cards that a line goes around, as boxes.
* `Connector.isAt_of`: the ends of a connector. -/

namespace ErCanvas

open Grid (Box)

/-! ### Positions -/

section

variable {v : Json} {p : Place} {ps : List (String × Place)} {id : String}

theorem IsPlace.entry_x (h : IsPlace v p) : v.entry "x" = .ok (.int p.1) := by
  obtain ⟨entries, rfl, hx, -⟩ := h
  simp only [Json.entry, hx]

theorem IsPlace.entry_y (h : IsPlace v p) : v.entry "y" = .ok (.int p.2) := by
  obtain ⟨entries, rfl, -, hy⟩ := h
  simp only [Json.entry, hy]

/-- What is found at an id is a place that the list has there. -/
theorem mem_of_find? {entries : List (String × Json)}
    (h : List.Forall₂ (fun e q => e.1 = q.1 ∧ IsPlace e.2 q.2) entries ps)
    (hfind : Json.find? id entries = some v) : ∃ p, (id, p) ∈ ps ∧ IsPlace v p := by
  induction h with
  | nil => cases hfind
  | @cons e q entries ps h _ ih =>
    obtain ⟨key, w⟩ := e
    obtain ⟨key', p⟩ := q
    obtain ⟨rfl, hp⟩ := h
    rw [Json.find?] at hfind
    split at hfind
    · rename_i hkey
      cases hfind
      exact ⟨p, hkey ▸ .head _, hp⟩
    · obtain ⟨p, hmem, hp⟩ := ih hfind
      exact ⟨p, .tail _ hmem, hp⟩

/-- Each place of the list is found at its id. -/
theorem find?_of_mem {entries : List (String × Json)}
    (h : List.Forall₂ (fun e q => e.1 = q.1 ∧ IsPlace e.2 q.2) entries ps)
    (hn : (ps.map Prod.fst).Nodup) (hmem : (id, p) ∈ ps) :
    ∃ v, Json.find? id entries = some v ∧ IsPlace v p := by
  induction h with
  | nil => cases hmem
  | @cons e q entries ps h _ ih =>
    obtain ⟨key, w⟩ := e
    obtain ⟨key', p'⟩ := q
    obtain ⟨rfl, hp⟩ := h
    obtain ⟨hkey, hn⟩ := List.nodup_cons.1 hn
    rw [Json.find?]
    rcases List.mem_cons.1 hmem with heq | hmem
    · cases heq
      exact ⟨w, if_pos rfl, hp⟩
    · have hne : key ≠ id := fun heq => hkey (heq ▸ List.mem_map.2 ⟨_, hmem, rfl⟩)
      rw [if_neg hne]
      exact ih hn hmem

end

/-! ### Boxes -/

theorem Grid.Box.rect_injective : Function.Injective Box.rect := by
  rintro ⟨x, y, width, height⟩ ⟨x', y', width', height'⟩ h
  simpa [Box.rect] using h

namespace Card

/-- The box of the card at a place, for a table of `n` columns. -/
def box (p : Place) (n : ℕ) : Box := ⟨p.1, p.2, width, headerHeight + n * rowHeight⟩

theorem rect_box {v : Json} {p : Place} (h : IsPlace v p) (t : Table Json) :
    rect t v = .ok (box p t.columns.length).rect := by
  rw [rect, h.entry_x, h.entry_y]
  rfl

end Card

/-- The box is that of the card of a table with a position, and the relationship does not name the
table; case does not count. -/
def OtherCard (s : Schema Json) (ps : List (String × Place)) (r : Relationship Json) (b : Box) : Prop :=
  ∃ t ∈ s.tables, r.fromTable.lower ≠ .ok t.id ∧ r.toTable.lower ≠ .ok t.id ∧
    ∃ p, (t.id, p) ∈ ps ∧ b = Card.box p t.columns.length

section

variable {s : Schema Json} {positions : Json} {ps : List (String × Place)} {r : Relationship Json}
  {cards : List Rect}

/-- Each card that a line goes around is that of a table with a position. -/
theorem exists_box_of_obstacles (hps : ArePlaces positions ps)
    (h : Route.obstacles s positions r = .ok cards) {card : Rect} (hcard : card ∈ cards) :
    ∃ t ∈ s.tables, ∃ p, (t.id, p) ∈ ps ∧ card = (Card.box p t.columns.length).rect := by
  obtain ⟨-, entries, rfl, hplaces⟩ := hps
  obtain ⟨source, -, h⟩ := Outcome.bind_eq_ok.1 h
  obtain ⟨target, -, h⟩ := Outcome.bind_eq_ok.1 h
  obtain ⟨⟨t, v⟩, hmem, hrect⟩ := Outcome.exists_of_mapM h hcard
  obtain ⟨t', ht, hfind⟩ := List.mem_filterMap.1 hmem
  obtain ⟨w, hfind, heq⟩ := Option.map_eq_some_iff.1 hfind
  cases heq
  obtain ⟨p, hp, hplace⟩ := mem_of_find? hplaces hfind
  have hrect : Card.rect t v = .ok card := hrect
  rw [Card.rect_box hplace] at hrect
  exact ⟨t, List.mem_of_mem_filter ht, p, hp, (Except.ok.inj hrect).symm⟩

/-- **The cards that a line goes around** are boxes, and all other cards are among them. -/
theorem obstacles_eq (hps : ArePlaces positions ps) (h : Route.obstacles s positions r = .ok cards) :
    ∃ boxes : List Box, cards = boxes.map Box.rect ∧ ∀ b, OtherCard s ps r b → b ∈ boxes := by
  obtain ⟨boxes, rfl⟩ : cards ∈ Set.range (List.map Box.rect) := by
    rw [Set.range_list_map]
    intro card hcard
    obtain ⟨t, -, p, -, rfl⟩ := exists_box_of_obstacles hps h hcard
    exact ⟨_, rfl⟩
  obtain ⟨hn, entries, rfl, hplaces⟩ := hps
  obtain ⟨source, hsource, h⟩ := Outcome.bind_eq_ok.1 h
  obtain ⟨target, htarget, h⟩ := Outcome.bind_eq_ok.1 h
  refine ⟨boxes, rfl, ?_⟩
  rintro _ ⟨t, ht, hnot, hnot', p, hp, rfl⟩
  obtain ⟨v, hfind, hv⟩ := find?_of_mem hplaces hn hp
  have hother : (t.id != source && t.id != target) = true := by
    rw [Bool.and_eq_true, bne_iff_ne, bne_iff_ne]
    exact ⟨fun heq => hnot (heq ▸ hsource), fun heq => hnot' (heq ▸ htarget)⟩
  have hmem : (t, v) ∈ (s.tables.filter fun t => t.id != source && t.id != target).filterMap
      fun t => (Json.find? t.id entries).map (t, ·) :=
    List.mem_filterMap.2 ⟨t, List.mem_filter.2 ⟨ht, hother⟩, by rw [hfind]; rfl⟩
  obtain ⟨card, hcard, hrect⟩ := Outcome.exists_of_forall₂ (Outcome.mapM_eq_ok.1 h).flip hmem
  have hrect : Card.rect t v = .ok card := hrect
  rw [Card.rect_box hv] at hrect
  rw [← Except.ok.inj hrect] at hcard
  exact (List.mem_map_of_injective Box.rect_injective).1 hcard

end

/-! ### Ends of lines -/

namespace Card

theorem leftX_eq {v : Json} {p : Place} (hp : IsPlace v p) : leftX v = .ok (.int p.1) := hp.entry_x

theorem rightX_eq {v : Json} {p : Place} (hp : IsPlace v p) :
    rightX v = .ok (.int (p.1 + width)) := by
  rw [rightX, hp.entry_x]
  rfl

/-- The height of the centre of a row, for a card at a place. -/
def center (p : Place) (row : ℕ) : ℤ := p.2 + headerHeight + row * rowHeight + 12

/-- The height of a row is exact, if the rows before it are not too many. -/
theorem rowCenterY_eq {v : Json} {p : Place} {row : ℕ} (hp : IsPlace v p) (hy : |p.2| ≤ 2 ^ 50)
    (hrow : row ≤ 2 ^ 48) : rowCenterY v (.int row) = .ok (.float (.num (center p row : ℤ))) := by
  have hy := abs_le.1 hy
  have hrows : rowCenterY v (.int row) =
      (Number.int (p.2 + headerHeight + row * rowHeight)).add (.float (.num (12 : ℤ))) := by
    rw [rowCenterY, hp.entry_y]
    rfl
  rw [hrows, center, headerHeight, rowHeight]
  exact Number.add_float (by omega) (by omega)

theorem center_moderate {p : Place} {row : ℕ} (hy : |p.2| ≤ 2 ^ 50) (hrow : row ≤ 2 ^ 48) :
    |center p row| < 2 ^ 53 - 1 := by
  have hy := abs_le.1 hy
  rw [abs_lt, center, headerHeight, rowHeight]
  omega

end Card

namespace Connector

variable {s : Schema Json} {positions : Json} {ps : List (String × Place)} {r : Relationship Json}
  {c : Connector}

theorem isPlace_of_position? {id : String} {v : Json} (hps : ArePlaces positions ps)
    (h : position? positions id = .ok (some v)) : ∃ p, (id, p) ∈ ps ∧ IsPlace v p := by
  obtain ⟨-, entries, rfl, hplaces⟩ := hps
  have h : (Json.find? id entries).filter Json.isTruthy = some v := Except.ok.inj h
  exact mem_of_find? hplaces (Option.filter_eq_some_iff.1 h).1

theorem lt_of_columnIndexFrom {wanted : String} {columns : List (Column Json)} {k row : ℕ}
    (h : columnIndexFrom wanted k columns = .ok (some row)) : row < k + columns.length := by
  induction columns generalizing k with
  | nil => cases h
  | cons column columns ih =>
    obtain ⟨name, -, h⟩ := Outcome.bind_eq_ok.1 h
    rw [List.length_cons]
    split at h
    · cases h
      omega
    · have := ih h
      omega

theorem lt_of_columnIndex? {t : Table Json} {name : Json} {row : ℕ}
    (h : t.columnIndex? name = .ok (some row)) : row < t.columns.length := by
  obtain ⟨wanted, -, h⟩ := Outcome.bind_eq_ok.1 h
  have := lt_of_columnIndexFrom h
  omega

theorem mem_of_table? {t : Table Json} {name : Json} (h : s.table? name = .ok (some t)) :
    t ∈ s.tables := by
  obtain ⟨id, -, h⟩ := Outcome.bind_eq_ok.1 h
  exact List.mem_of_find?_eq_some (Except.ok.inj h)

/-- The ends of a line between two rows of cards at whole places. -/
theorem isAt_of_between {v v' : Json} {p p' : Place} {row row' : ℕ} (hp : IsPlace v p)
    (hp' : IsPlace v' p') (hy : |p.2| ≤ 2 ^ 50) (hy' : |p'.2| ≤ 2 ^ 50) (hrow : row ≤ 2 ^ 48)
    (hrow' : row' ≤ 2 ^ 48) (h : between v v' row row' = .ok c) :
    (∃ a, c.start.IsAt a) ∧ ∃ b, c.finish.IsAt b := by
  obtain ⟨y, hcenter, h⟩ := Outcome.bind_eq_ok.1 h
  obtain ⟨y', hcenter', h⟩ := Outcome.bind_eq_ok.1 h
  obtain ⟨left, -, h⟩ := Outcome.bind_eq_ok.1 h
  obtain ⟨right, -, h⟩ := Outcome.bind_eq_ok.1 h
  rw [Card.rowCenterY_eq hp hy hrow] at hcenter
  rw [Card.rowCenterY_eq hp' hy' hrow'] at hcenter'
  have hy : y.Has (Card.center p row) := .inr ⟨(Except.ok.inj hcenter).symm, Card.center_moderate hy hrow⟩
  have hy' : y'.Has (Card.center p' row') :=
    .inr ⟨(Except.ok.inj hcenter').symm, Card.center_moderate hy' hrow'⟩
  split at h
  · rw [Card.rightX_eq hp, Card.leftX_eq hp'] at h
    obtain rfl := Except.ok.inj h
    exact ⟨⟨(_, Card.center p row), ⟨_, rfl, .inl rfl⟩, _, rfl, hy⟩,
      (_, Card.center p' row'), ⟨_, rfl, .inl rfl⟩, _, rfl, hy'⟩
  · rw [Card.leftX_eq hp, Card.rightX_eq hp'] at h
    obtain rfl := Except.ok.inj h
    exact ⟨⟨(_, Card.center p row), ⟨_, rfl, .inl rfl⟩, _, rfl, hy⟩,
      (_, Card.center p' row'), ⟨_, rfl, .inl rfl⟩, _, rfl, hy'⟩

/-- The names of a table and of a column lead to a table, to its position, and to a row of it. -/
structure Leads (s : Schema Json) (positions table column : Json) (t : Table Json) (v : Json)
    (row : ℕ) : Prop where
  table_eq : s.table? table = .ok (some t)
  position_eq : position? positions t.id = .ok (some v)
  row_eq : t.columnIndex? column = .ok (some row)

/-- **A relationship has a connector** if its names lead to two rows, and the connector is the one between
them. -/
theorem of?_eq_some_iff : of? s positions r = .ok (some c) ↔ ∃ source v row target v' row',
    Leads s positions r.fromTable r.fromColumn source v row ∧
      Leads s positions r.toTable r.toColumn target v' row' ∧ between v v' row row' = .ok c := by
  constructor
  · intro h
    obtain ⟨source, hsource, h⟩ := Outcome.bind_eq_ok.1 h
    obtain ⟨target, htarget, h⟩ := Outcome.bind_eq_ok.1 h
    rcases source with - | source
    · cases h
    rcases target with - | target
    · cases h
    obtain ⟨v, hv, h⟩ := Outcome.bind_eq_ok.1 h
    obtain ⟨v', hv', h⟩ := Outcome.bind_eq_ok.1 h
    rcases v with - | v
    · cases h
    rcases v' with - | v'
    · cases h
    obtain ⟨row, hrow, h⟩ := Outcome.bind_eq_ok.1 h
    obtain ⟨row', hrow', h⟩ := Outcome.bind_eq_ok.1 h
    rcases row with - | row
    · cases h
    rcases row' with - | row'
    · cases h
    obtain ⟨c', hbetween, h⟩ := Outcome.bind_eq_ok.1 h
    cases h
    exact ⟨source, v, row, target, v', row', ⟨hsource, hv, hrow⟩, ⟨htarget, hv', hrow'⟩, hbetween⟩
  · rintro ⟨source, v, row, target, v', row', hsource, htarget, hbetween⟩
    simp only [of?, hsource.table_eq, hsource.position_eq, hsource.row_eq, htarget.table_eq, htarget.position_eq,
      htarget.row_eq, hbetween, Outcome.ok_bind, Outcome.pure_eq]

/-- **The ends of a line** are at whole places, if the positions are moderate and the tables have not too
many rows. -/
theorem isAt_of (hps : ArePlaces positions ps) (hy : ∀ e ∈ ps, |e.2.2| ≤ 2 ^ 50)
    (hrows : ∀ t ∈ s.tables, t.columns.length ≤ 2 ^ 48) (h : of? s positions r = .ok (some c)) :
    (∃ a, c.start.IsAt a) ∧ ∃ b, c.finish.IsAt b := by
  obtain ⟨source, v, row, target, v', row', hsource, htarget, h⟩ := of?_eq_some_iff.1 h
  obtain ⟨p, hmem, hp⟩ := isPlace_of_position? hps hsource.position_eq
  obtain ⟨p', hmem', hp'⟩ := isPlace_of_position? hps htarget.position_eq
  exact isAt_of_between hp hp' (hy _ hmem) (hy _ hmem')
    ((lt_of_columnIndex? hsource.row_eq).le.trans (hrows _ (mem_of_table? hsource.table_eq)))
    ((lt_of_columnIndex? htarget.row_eq).le.trans (hrows _ (mem_of_table? htarget.table_eq))) h

end Connector

end ErCanvas
