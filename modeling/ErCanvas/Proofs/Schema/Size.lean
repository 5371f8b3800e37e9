import ErCanvas.Conversion
import ErCanvas.Proofs.Json.Width
import ErCanvas.Proofs.Schema.Declared
import ErCanvas.Proofs.Sql.Reading

/-! # How large a schema is

Every table of a script takes up a parenthesis, and every column a clause of its own; the tables and the
columns of a declarative document are the items of its lists. So a schema has no more tables, and no table
more columns, than the text that it is extracted from has characters.

* `Schema.Fits`: the bounds on a schema.
* `fits_of_extractAs`: the schemas that are extracted. -/

namespace ErCanvas

/-- There are at most `n` tables, with at most `n` columns each. -/
structure Schema.Fits {ν : Type} (n : ℕ) (s : Schema ν) : Prop where
  tables : s.tables.length ≤ n
  columns : ∀ t ∈ s.tables, t.columns.length ≤ n

namespace Sql

/-! ### Cleaning -/

theorem length_dropBlocks_le (cs : List Char) : (dropBlocks cs).length ≤ cs.length := by
  fun_induction dropBlocks cs with
  | case1 => exact le_rfl
  | case2 c rest _ after ha ih =>
    have hafter := length_of_afterBlock? ha
    simp only [List.length_tail, List.length_cons] at hafter ⊢
    omega
  | case3 => exact le_rfl
  | case4 c rest _ ih => exact Nat.succ_le_succ ih

theorem length_dropLines_le (inside : Bool) (cs : List Char) :
    (dropLines inside cs).length ≤ cs.length := by
  induction cs generalizing inside with
  | nil => exact le_rfl
  | cons c rest ih =>
    rw [dropLines]
    split
    · split
      · exact Nat.succ_le_succ (ih false)
      · exact (ih true).trans (Nat.le_succ _)
    · split
      · exact (ih true).trans (Nat.le_succ _)
      · exact Nat.succ_le_succ (ih false)

theorem length_collapse_le (blank : Bool) (cs : List Char) : (collapse blank cs).length ≤ cs.length := by
  induction cs generalizing blank with
  | nil => exact le_rfl
  | cons c rest ih =>
    rw [collapse]
    split
    · split
      · exact (ih true).trans (Nat.le_succ _)
      · exact Nat.succ_le_succ (ih true)
    · exact Nat.succ_le_succ (ih false)

theorem length_clean_le_dropBlocks (cs : List Char) : (clean cs).length ≤ (dropBlocks cs).length :=
  (Text.trim_infix _).length_le.trans <| (length_collapse_le _ _).trans (length_dropLines_le _ _)

theorem length_clean_le (cs : List Char) : (clean cs).length ≤ cs.length :=
  (length_clean_le_dropBlocks cs).trans (length_dropBlocks_le cs)

/-! ### Clauses -/

theorem length_pieces_le (n : Nesting) (cs : List Char) : (pieces n cs).length ≤ cs.length + 1 := by
  induction cs generalizing n with
  | nil => exact le_rfl
  | cons c cs ih =>
    rw [pieces]
    split
    · exact Nat.succ_le_succ (ih n)
    · have hn := ih (n.step c)
      split
      · rename_i p ps hp
        rw [hp] at hn
        exact hn.trans (Nat.le_succ _)
      · exact Nat.succ_le_succ (Nat.zero_le _)

theorem length_clauses_le (cs : List Char) : (clauses cs).length ≤ cs.length + 1 := by
  refine (List.length_filter_le _ _).trans ?_
  rw [List.length_map]
  exact length_pieces_le .top cs

theorem length_markFirst (name : String) (change : Column String → Column String)
    (cs : List (Column String)) : (markFirst name change cs).length = cs.length := by
  induction cs with
  | nil => rfl
  | cons c cs ih =>
    rw [markFirst]
    split
    · rfl
    · exact congrArg (· + 1) ih

namespace Draft

variable (d : Draft) (cs : List Char)

/-- The number of columns. -/
def size : ℕ := d.table.columns.length

theorem size_mark (name : String) (change : Column String → Column String) :
    (d.mark name change).size = d.size := length_markFirst name change _

theorem size_applyPrimaryKey : (d.applyPrimaryKey cs).size = d.size :=
  List.foldlRecOn (motive := fun d' => size d' = d.size) _ _ rfl fun d' h name _ =>
    (d'.size_mark name _).trans h

theorem size_applyForeignKey : (d.applyForeignKey cs).size = d.size := by
  unfold applyForeignKey
  split
  · rfl
  · exact List.foldlRecOn (motive := fun d' => size d' = d.size) _ _ rfl fun d' h pair _ =>
      (d'.size_mark pair.1 _).trans h

theorem size_applyColumn_le : (d.applyColumn cs).size ≤ d.size + 1 := by
  unfold applyColumn
  split
  · exact Nat.le_succ _
  · exact (List.length_append ..).le

/-- A clause adds one column at most. -/
theorem size_apply_le : (d.apply cs).size ≤ d.size + 1 := by
  unfold apply
  split
  · exact (d.size_applyPrimaryKey cs).le.trans (Nat.le_succ _)
  · exact (d.size_applyForeignKey cs).le.trans (Nat.le_succ _)
  · exact d.size_applyColumn_le cs
  · exact Nat.le_succ _

theorem size_foldl_apply_le (css : List (List Char)) : (css.foldl apply d).size ≤ d.size + css.length := by
  induction css generalizing d with
  | nil => exact le_rfl
  | cons cs css ih =>
    have hone := d.size_apply_le cs
    have hrest := ih (d.apply cs)
    rw [List.foldl_cons, List.length_cons]
    omega

end Draft

theorem length_columns_tableOf_le (name body : List Char) :
    (tableOf name body).columns.length ≤ body.length + 1 := by
  refine (Draft.size_foldl_apply_le _ (clauses body)).trans ?_
  simpa [Draft.size] using length_clauses_le body

/-! ### Statements -/

/-- The body of a statement is shorter than the script. -/
theorem length_body_lt {cs name body : List Char} (h : .closed name body ∈ statements cs) :
    body.length < cs.length := by
  induction cs using statements.induct with
  | case1 cs hnone =>
    rw [statements_of_none hnone] at h
    cases h
  | case2 cs name' rest hheader hclose ih =>
    rw [statements_unclosed hheader hclose] at h
    rcases List.mem_cons.1 h with h | h
    · cases h
    · exact (ih h).trans (length_of_header? hheader)
  | case3 cs name' rest hheader i hclose ih =>
    rw [statements_closed hheader hclose] at h
    have hrest := length_of_header? hheader
    rcases List.mem_cons.1 h with h | h
    · cases h
      exact (List.take_sublist _ _).length_le.trans_lt hrest
    · exact ((ih h).trans_le (List.drop_sublist _ _).length_le).trans hrest

/-- **The schema of a script** is no larger than the script. -/
theorem fits_of_extract {script : String} {s : Schema String} (h : (extract script).1 = .ok s) :
    s.Fits script.length := by
  have hclean : (clean script.toList).length ≤ script.length := length_clean_le script.toList
  have htables : (progressOf script.toList).tables =
      (statements (clean script.toList)).filterMap Statement.table? := tables_read _
  unfold extract at h
  dsimp only at h
  split at h
  · cases h
  · cases h
    rw [htables]
    constructor
    · calc _ ≤ (statements (clean script.toList)).length := List.length_filterMap_le _ _
        _ ≤ (clean script.toList).count '(' := length_statements_le _
        _ ≤ (clean script.toList).length := List.count_le_length
        _ ≤ script.length := hclean
    · intro t ht
      obtain ⟨_ | _, hs, ht⟩ := List.mem_filterMap.1 ht
      · rename_i name body
        cases ht
        exact (length_columns_tableOf_le name body).trans ((length_body_lt hs).trans_le hclean)
      · cases ht

end Sql

/-! ### Declarations -/

namespace Declaration

open Json (Narrow)

theorem length_columns_le {n : ℕ} {v : Json} {t : Table String} (hv : Narrow n v)
    (h : IsObject (DeclaresTable · t) v) : t.columns.length ≤ n := by
  obtain ⟨entries, rfl, -, ⟨-, hnone⟩ | ⟨values, hvalues, hcolumns⟩⟩ := h
  · rw [hnone]
    exact Nat.zero_le _
  · cases hv.find? hvalues with
    | arr hn _ => exact hcolumns.length_eq ▸ hn

/-- **The schema of a declarative document** is no larger than its text. -/
theorem fits_of_extractFrom {text : String} {depth : ℕ} {s : Schema String}
    (h : (extractFrom (.str text) depth).1 = .ok s) : s.Fits text.length := by
  obtain ⟨document, hread, hext⟩ | ⟨-, d, hd⟩ := extractFrom_fst text depth
  · obtain ⟨entries, rfl, values, hvalues, htables⟩ := (declares_of_ofDocument (hext ▸ h)).tables
    cases (Json.narrow_of_read hread).find? hvalues with
    | arr hn hnarrow =>
      refine ⟨htables.length_eq ▸ hn, fun t ht => ?_⟩
      obtain ⟨v, hv, ht⟩ := Outcome.exists_of_forall₂ htables ht
      exact length_columns_le (hnarrow v hv) ht
  · rw [hd] at h
    cases h

end Declaration

/-! ### Sources -/

/-- **The schema of a source** is no larger than its text. -/
theorem fits_of_extractAs {format : SourceFormat} {text : String} {depth : ℕ} {s : Schema String}
    (h : (extractAs format (.str text) depth).1 = .ok s) : s.Fits text.length := by
  cases format with
  | script => exact Sql.fits_of_extract (Outcome.mapError_eq_ok.1 h)
  | declaration => exact Declaration.fits_of_extractFrom (Outcome.mapError_eq_ok.1 h)

end ErCanvas
