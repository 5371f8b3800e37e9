import ErCanvas.Proofs.Connector.Attached

/-! # Reversed relationships

A relationship and the one with source and target exchanged name the same two rows. Either both have a
connector or neither has, and unless the cards are at the same horizontal position, the one connector is the
other from its end to its start. At the same position both leave to the right.

* `Relationship.reversed`: the relationship with source and target exchanged.
* `Connector.eq_none_of_reversed`: there is no connector for one of them alone.
* `Connector.joining_reversed`: the connector between exchanged boxes.
* `Connector.ends_exchanged`: a relationship and its reversed one. -/

namespace ErCanvas

open Grid (Box)

/-- The relationship with source and target exchanged. -/
def Relationship.reversed {ν : Type} (r : Relationship ν) : Relationship ν :=
  ⟨r.toTable, r.toColumn, r.fromTable, r.fromColumn⟩

theorem Relationship.Named.reversed {r : Relationship Json} (h : r.Named) : r.reversed.Named :=
  ⟨h.2.2.1, h.2.2.2, h.1, h.2.1⟩

/-- There is one place at an id. -/
theorem ArePlaces.place_unique {v : Json} {ps : List (String × Place)} {id : String} {p p' : Place}
    (h : ArePlaces v ps) (hp : (id, p) ∈ ps) (hp' : (id, p') ∈ ps) : p = p' :=
  congrArg Prod.snd (List.inj_on_of_nodup_map h.1 hp hp' rfl)

namespace Connector

variable {s : Schema Json} {positions : Json} {ps : List (String × Place)} {r : Relationship Json}
  {c c' : Connector}

theorem exists_of?_of_named (hs : s.Named) (hps : ArePlaces positions ps) (hm : Moderate s ps) (hr : r.Named) :
    ∃ found, of? s positions r = .ok found := by
  obtain ⟨found, hfound, -⟩ := (lowers_atRow hps hm).succeeds (isText_consulted_of_named hs hr)
  exact ⟨found, hfound⟩

theorem exists_reversed (hps : ArePlaces positions ps) (hm : Moderate s ps)
    (hc : of? s positions r = .ok (some c)) : ∃ c', of? s positions r.reversed = .ok (some c') := by
  obtain ⟨source, v, row, p, y, target, v', row', p', y', hsource, htarget, -⟩ := exists_stands hps hm hc
  exact ⟨_, Stands.of?_eq hm htarget hsource 0 0⟩

theorem eq_none_of_reversed (hps : ArePlaces positions ps) (hm : Moderate s ps) {found found' : Option Connector}
    (h : of? s positions r = .ok found) (h' : of? s positions r.reversed = .ok found')
    (hnone : found' = none) : found = none := by
  subst hnone
  cases found with
  | none => rfl
  | some c =>
    obtain ⟨c', hc'⟩ := exists_reversed hps hm h
    cases h'.symm.trans hc'

/-- The connector from the one box to the other is the one back, reversed. -/
theorem joining_reversed {b b' : Box} (hne : b.x ≠ b'.x) (y y' : ℤ) :
    (joining b' b y' y).start = (joining b b' y y').finish ∧
      (joining b' b y' y).finish = (joining b b' y y').start ∧
      (joining b' b y' y).exitRight = !(joining b b' y y').exitRight := by
  have hflip : decide (b'.x ≤ b.x) = !decide (b.x ≤ b'.x) := by
    rw [← decide_not]
    exact decide_eq_decide.2 ⟨fun h => by omega, fun h => by omega⟩
  simp only [joining, hflip, Bool.not_not, and_self]

theorem arrowAngle_add (h : c'.exitRight = !c.exitRight) : c.arrowAngle + c'.arrowAngle = 180 := by
  rw [arrowAngle, arrowAngle, h]
  cases c.exitRight <;> rfl

/-- **Reversing a relationship reverses its line.** Both relationships have a connector or neither has; and if
the cards are at different horizontal positions, the connectors lead to and fro between the same points. -/
theorem ends_exchanged (hs : s.Named) (hps : ArePlaces positions ps) (hm : Moderate s ps) (hr : r.Named) :
    ∃ found found', of? s positions r = .ok found ∧ of? s positions r.reversed = .ok found' ∧
      (found = none ↔ found' = none) ∧
      ∀ c c', found = some c → found' = some c' → ∀ source target p p',
        s.table? r.fromTable = .ok (some source) → s.table? r.toTable = .ok (some target) →
        (source.id, p) ∈ ps → (target.id, p') ∈ ps → p.1 ≠ p'.1 →
        c'.start = c.finish ∧ c'.finish = c.start ∧ c'.exitRight = (!c.exitRight) ∧
          c.arrowAngle + c'.arrowAngle = 180 := by
  obtain ⟨found, hfound⟩ : ∃ found, of? s positions r = .ok found := exists_of?_of_named hs hps hm hr
  obtain ⟨found', hfound'⟩ : ∃ found', of? s positions r.reversed = .ok found' :=
    exists_of?_of_named hs hps hm hr.reversed
  refine ⟨found, found', hfound, hfound', ?_, ?_⟩
  · exact ⟨eq_none_of_reversed (r := r.reversed) hps hm hfound' hfound,
      eq_none_of_reversed hps hm hfound hfound'⟩
  · rintro c c' rfl rfl source target p p' htable htable' hp hp' hne
    obtain ⟨source', v, row, q, y, target', v', row', q', y', h, h', rfl⟩ := exists_stands hps hm hfound
    obtain rfl := Option.some.inj (Except.ok.inj (htable.symm.trans h.table_eq))
    obtain rfl := Option.some.inj (Except.ok.inj (htable'.symm.trans h'.table_eq))
    -- an id has one place only
    obtain rfl := hps.place_unique hp h.mem
    obtain rfl := hps.place_unique hp' h'.mem
    have hback := Stands.of?_eq (r := r.reversed) hm h' h target.columns.length source.columns.length
    obtain rfl := Option.some.inj (Except.ok.inj (hfound'.symm.trans hback))
    have hboxes : (Card.box p source.columns.length).x ≠ (Card.box p' target.columns.length).x := hne
    obtain ⟨hstart, hfinish, hright⟩ := joining_reversed hboxes y y'
    exact ⟨hstart, hfinish, hright, arrowAngle_add hright⟩

end Connector

/-! Of the two stacked cards, the lower one is a little further right. -/

theorem named_stacked : stacked.Named where
  columns := by simp [stacked, Column.make]
  relationships := by simp [stacked, stackedRelationship]

theorem moderate_stacked : Moderate stacked stackedPlaces where
  columns := by decide
  places := by decide

theorem ends_exchanged_stacked : ∃ c', Connector.of? stacked stackedPositions stackedRelationship.reversed =
      .ok (some c') ∧ c'.start = stackedConnector.finish ∧ c'.finish = stackedConnector.start ∧
    c'.exitRight = false ∧ stackedConnector.arrowAngle + c'.arrowAngle = 180 := by
  have hnamed := named_stacked.relationships stackedRelationship (.head _)
  obtain ⟨found, found', hfound, hfound', hnone, h⟩ :=
    Connector.ends_exchanged named_stacked arePlaces_stacked moderate_stacked hnamed
  obtain rfl := Except.ok.inj (connector_stacked.symm.trans hfound)
  cases found' with
  | none => cases hnone.2 rfl
  | some c' =>
    exact ⟨c', hfound', h _ _ rfl rfl _ _ (100, 100) (130, 350) rfl rfl (.head _) (.tail _ (.head _))
      (by decide)⟩

end ErCanvas
