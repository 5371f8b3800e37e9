import ErCanvas.Declaration
import ErCanvas.Proofs.Schema.Stored
import ErCanvas.Proofs.Sql.Columns

/-! # Built schemas

A schema of texts is built from a script, from a declarative document or from a stored schema; where
the source is refused, it is the schema without tables. All columns of a built schema are normal. -/

namespace ErCanvas

/-- The schema comes from one of the sources that schemas are made of. -/
inductive Schema.Built : Schema String → Prop where
  /-- Of a refused script or document. -/
  | empty : Built .empty
  | script {v : Json} {s : Schema String} (h : (Sql.extractFrom v).1 = .ok s) : Built s
  | declaration {v : Json} {depth : ℕ} {s : Schema String}
    (h : (Declaration.extractFrom v depth).1 = .ok s) : Built s
  | stored {v : Json} {s : Schema String} (h : Schema.ofJson v = .ok s.stored) : Built s

/-! ### Declared schemas -/

namespace Declaration

theorem column_normal {table : String} {v : Json} {c : Column String}
    (h : column table v = .ok c) : c.Normal := by
  unfold column at h
  split at h
  · split at h
    · obtain ⟨r, _, h⟩ := Outcome.bind_eq_ok.1 h
      obtain ⟨type, _, h⟩ := Outcome.bind_eq_ok.1 h
      cases h; exact Column.normal_make ..
    · cases h
  · cases h

theorem table_normal {place : ℕ} {v : Json} {t : Table String} (h : table place v = .ok t) :
    ∀ c ∈ t.columns, c.Normal := by
  unfold table at h
  split at h
  · split at h
    · obtain ⟨values, _, h⟩ := Outcome.bind_eq_ok.1 h
      obtain ⟨columns, hc, h⟩ := Outcome.bind_eq_ok.1 h
      cases h; exact Outcome.mapM_forall (fun _ _ => column_normal) hc
    · cases h
  · cases h

theorem tablesFrom_normal {place : ℕ} {values : List Json} {ts : List (Table String)}
    (h : tablesFrom place values = .ok ts) : ∀ t ∈ ts, ∀ c ∈ t.columns, c.Normal := by
  induction values generalizing place ts with
  | nil => cases h; simp
  | cons v rest ih =>
    obtain ⟨t, ht, h⟩ := Outcome.bind_eq_ok.1 h
    obtain ⟨ts', hts, h⟩ := Outcome.bind_eq_ok.1 h
    cases h
    exact List.forall_mem_cons.2 ⟨table_normal ht, ih hts⟩

theorem declared_normal {values : List Json} {s : Schema String} (h : declared values = .ok s) :
    s.Normal := by
  obtain ⟨ts, hts, h⟩ := Outcome.bind_eq_ok.1 h
  cases h; exact tablesFrom_normal hts

theorem extractFrom_normal {v : Json} {depth : ℕ} {s : Schema String}
    (h : (extractFrom v depth).1 = .ok s) : s.Normal := by
  simp only [extractFrom] at h
  split at h
  · cases h
  · unfold ofDocument at h
    split at h
    · split at h
      · rename_i values _
        cases hd : declared values with
        | error m => rw [hd] at h; cases h
        | ok s' => rw [hd] at h; cases h; exact declared_normal hd
      · cases h
    · cases h

end Declaration

/-- **All columns of a built schema are normal.** -/
theorem Schema.Built.normal {s : Schema String} (h : s.Built) : s.Normal := by
  cases h with
  | empty => intro t ht; cases ht
  | script h => exact Sql.extractFrom_columns Column.kept_normal h
  | declaration h => exact Declaration.extractFrom_normal h
  | stored h => exact Schema.normal_map.1 (Schema.ofJson_normal h)

end ErCanvas
