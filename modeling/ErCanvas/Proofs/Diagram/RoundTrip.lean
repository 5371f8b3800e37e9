import ErCanvas.Proofs.Canvas.Place
import ErCanvas.Proofs.Diagram.Stored
import ErCanvas.Proofs.Schema.Built

/-! # Export and import of diagrams

A diagram with cards at places is printed and read again. Every value in its document is readable, and
every part of the document is read as what it was stored from.

* `storable_cards`: a diagram with cards at places is storable.
* `importFrom_print`: what is imported after an export is what has been exported. -/

namespace ErCanvas.Diagram

open Json (Readable)

/-- Cards at the ids of a list, each at its place. -/
def cards (ps : List (String × Place)) : List (String × Point) := ps.map fun q => (q.1, q.2.point)

/-! ### Places -/

theorem legible_place {p : Place} (h1 : p.1.natAbs < 10 ^ Fault.digitLimit)
    (h2 : p.2.natAbs < 10 ^ Fault.digitLimit) (d : ℕ) : p.point.Legible d :=
  ⟨.num d (Number.readsBack_int h1), .num d (Number.readsBack_int h2)⟩

theorem positionsOf_arePlaces {v : Json} {ps : List (String × Place)} (h : ArePlaces v ps) :
    positionsOf v = .ok (cards ps) := by
  obtain ⟨-, entries, hv, h⟩ := h
  refine positionsOf_eq_ok.2 ⟨entries, hv, ?_⟩
  rw [cards, List.forall₂_map_right_iff]
  exact h.imp fun e q he => ⟨he.1, ofJson_isPlace he.2⟩

theorem panOf_isPlace {v : Json} {p : Place} (h : IsPlace v p) : panOf v = .ok p.point := by
  rw [panOf, if_pos h.isTruthy, ofJson_isPlace h]

/-- A diagram with cards and pan at places is storable, if their coordinates are within the digit
limit. -/
theorem storable_cards {s : Schema String} (hs : s.Built) {ps : List (String × Place)} {p : Place}
    (hdistinct : (ps.map Prod.fst).Nodup) {z : Json} (hz : Restorable z)
    (hlim : ∀ q ∈ p :: ps.map Prod.snd,
      q.1.natAbs < 10 ^ Fault.digitLimit ∧ q.2.natAbs < 10 ^ Fault.digitLimit) :
    Storable 0 ⟨formatVersion, s.stored, cards ps, z, p.point⟩ where
  version := rfl
  normal := Schema.normal_map.2 hs.normal
  names := Schema.legible_stored 0 s
  distinct := by simpa [cards, Function.comp_def] using hdistinct
  positions := by
    rw [cards, List.forall_mem_map]
    intro q hq
    have hq := hlim q.2 (.tail _ (List.mem_map_of_mem hq))
    exact legible_place hq.1 hq.2 _
  zoom := hz.readable _
  pan := legible_place (hlim p (.head _)).1 (hlim p (.head _)).2 _

/-! ### Export and import -/

/-- The zoom of a diagram that is given a whole zoom, or the standard one. -/
theorem exists_clampZoom {zoom : Json} (h : zoom = standardZoom ∨ ∃ n : ℤ, zoom = .int n) :
    ∃ z, clampZoom zoom = .ok z ∧ Restorable z := by
  rcases h with rfl | ⟨n, rfl⟩
  · exact ⟨_, clampZoom_standard, restorable_standard⟩
  · exact ⟨_, clampZoom_int n, restorable_int (clampZoom_int n)⟩

/-- **What is imported after an export is what has been exported:** the schema, the places of the
cards, the zoom by its value, and the pan. -/
theorem importFrom_print {s : Schema String} (hs : s.Built) {positions zoom pan : Json}
    {ps : List (String × Place)} {p : Place} (hps : ArePlaces positions ps)
    (hz : zoom = standardZoom ∨ ∃ n : ℤ, zoom = .int n)
    (hp : (pan = .null ∧ p = (0, 0)) ∨ IsPlace pan p)
    (hlim : ∀ q ∈ p :: ps.map Prod.snd,
      q.1.natAbs < 10 ^ Fault.digitLimit ∧ q.2.natAbs < 10 ^ Fault.digitLimit) :
    ∃ text d z, print s.stored positions zoom pan = .ok text ∧
      importFrom (.str text) = .ok (.ok d) ∧ d.schema = s.stored ∧ d.positions = cards ps ∧
      clampZoom zoom = .ok z ∧ d.zoom.same z ∧ d.pan = p.point := by
  obtain ⟨z, hz, hr⟩ := exists_clampZoom hz
  have hpan : panOf pan = .ok p.point := by
    rcases hp with ⟨rfl, rfl⟩ | hp
    · rfl
    · exact panOf_isPlace hp
  have hd := storable_cards hs hps.1 hr hlim
  obtain ⟨z', hz', hc, hsame⟩ := hr.restored
  refine ⟨_, _, z, ?_, hd.importFrom_toJson (by decide) hz' hc, rfl, rfl, hz, hsame, rfl⟩
  simp only [print, make, positionsOf_arePlaces hps, hz, hpan]
  rfl

/-- Posts with their authors. -/
def blog : Schema String :=
  ⟨[⟨"Users", [⟨"id", "int", true, false, false, none⟩]⟩,
    ⟨"Posts", [⟨"author", "int", false, true, true, some ⟨"Users", "id"⟩⟩]⟩],
    [⟨"Posts", "author", "Users", "id"⟩]⟩

def blogScript : String :=
  "CREATE TABLE Users (id int PRIMARY KEY); CREATE TABLE Posts (author int REFERENCES Users (id))"

theorem extractFrom_blog : (Sql.extractFrom (.str blogScript)).1 = .ok blog := by
  have h : (Sql.extractFrom (.str blogScript)).1.toOption = some blog := by decide +kernel
  cases he : (Sql.extractFrom (.str blogScript)).1 with
  | error e => rw [he] at h; cases h
  | ok s => rw [he] at h; cases h; rfl

theorem built_blog : blog.Built := .script extractFrom_blog

theorem importFrom_print_blog :
    ∃ text d z, print blog.stored
        (.obj [("users", Point.toJson ⟨.int 40, .int (-40)⟩),
          ("posts", Point.toJson ⟨.int 320, .int 40⟩)]) (.int 7) .null = .ok text ∧
      importFrom (.str text) = .ok (.ok d) ∧ d.schema = blog.stored ∧
      d.positions = cards [("users", (40, -40)), ("posts", (320, 40))] ∧
      clampZoom (.int 7) = .ok z ∧ d.zoom.same z ∧ d.pan = Place.point (0, 0) :=
  importFrom_print built_blog
    ⟨by decide, _, rfl, .cons ⟨rfl, isPlace_toJson (40, -40)⟩
      (.cons ⟨rfl, isPlace_toJson (320, 40)⟩ .nil)⟩
    (.inr ⟨7, rfl⟩) (.inl ⟨rfl, rfl⟩) (by
      have h : 10 ^ 3 ≤ 10 ^ Fault.digitLimit := Nat.pow_le_pow_right (by decide) (by decide)
      intro q hq
      have hq : q.1.natAbs < 10 ^ 3 ∧ q.2.natAbs < 10 ^ 3 := by revert q; decide
      exact ⟨hq.1.trans_le h, hq.2.trans_le h⟩)

end ErCanvas.Diagram
