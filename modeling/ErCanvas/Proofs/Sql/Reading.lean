import ErCanvas.Proofs.Sql.Consistency
import ErCanvas.Proofs.Sql.Header
import ErCanvas.Proofs.Sql.Nesting

/-! # What reading finds

Reading a clean script goes from header to header: past the body of a statement that is closed, or else
past the parenthesis that is not. As headers that overlap end at the same parenthesis, nothing is passed
over that would have been closed. So a script has a schema exactly if some header in it, wherever it
starts, has a closing parenthesis (`extract_outcome`).

* `HeaderAt`, `Span`: where headers and statements stand in a text.
* `Span.Makes`: the table that a statement at its place makes.
* `errorOf`: the error that is reported for a script. -/

namespace ErCanvas.Sql

open Nesting (top)

/-! ### Places -/

/-- At `head` begins a header for the table `name`, which ends with the parenthesis at `opening`. -/
structure HeaderAt (cs name : List Char) (head opening : ℕ) : Prop where
  paren : cs[opening]? = some '('
  read : headerHere? (cs.drop head) = some (name, cs.drop (opening + 1))

/-- Where a statement stands: the places of its header, of its opening and of its closing parenthesis. -/
structure Span where
  head : ℕ
  opening : ℕ
  closing : ℕ

/-- The table of a statement. -/
def tableOf (name body : List Char) : Table String := (draftOf .start name body).table

/-- The table is made from what stands at the place. -/
structure Span.Makes (cs : List Char) (s : Span) (t : Table String) : Prop where
  header : HeaderAt cs t.name.toList s.head s.opening
  head_lt : s.head < s.opening
  closes : closingIndex cs s.opening = .ok s.closing
  opening_lt : s.opening < s.closing
  eq_tableOf : t = tableOf t.name.toList (between cs s.opening s.closing)

section

variable {cs v x name rest : List Char}

theorem getElem?_length (w : List Char) (c : Char) (u : List Char) :
    (w ++ c :: u)[w.length]? = some c := by simp

/-- What stands behind the parenthesis of a header. -/
theorem drop_open (v x rest : List Char) :
    (v ++ (x ++ '(' :: rest)).drop ((v ++ x).length + 1) = rest := by
  rw [← List.append_assoc]
  exact List.drop_length_add_append 1

theorem headerAt_append (h : headerHere? (x ++ '(' :: rest) = some (name, rest)) :
    HeaderAt (v ++ (x ++ '(' :: rest)) name v.length (v ++ x).length := by
  constructor
  · rw [← List.append_assoc]
    exact getElem?_length (v ++ x) '(' rest
  · rw [drop_open, List.drop_left]
    exact h

/-- Behind a parenthesis the closing one is looked for inside it. -/
theorem closingIndex_open {o : ℕ} (ho : cs[o]? = some '(') :
    closingIndex cs o = .ok (match closing? ⟨1, none⟩ (cs.drop (o + 1)) with
      | some i => (o : ℤ) + 1 + i
      | none => -1) := by
  have hopen : closing? top (cs.drop o) = (closing? ⟨1, none⟩ (cs.drop (o + 1))).map (· + 1) := by
    rw [drop_of_getElem? ho]; rfl
  rw [closingIndex_natCast, hopen]
  cases closing? ⟨1, none⟩ (cs.drop (o + 1)) with
  | none => rfl
  | some i =>
    show Except.ok ((o : ℤ) + (i + 1 : ℕ)) = Except.ok ((o : ℤ) + 1 + i)
    congr 1
    omega

theorem closingIndex_ne_iff {o : ℕ} (ho : cs[o]? = some '(') :
    closingIndex cs o ≠ .ok (-1) ↔ closing? ⟨1, none⟩ (cs.drop (o + 1)) ≠ none := by
  rw [closingIndex_open ho]
  cases closing? ⟨1, none⟩ (cs.drop (o + 1)) with
  | none => simp
  | some i =>
    have hne : (o : ℤ) + 1 + i ≠ -1 := by omega
    simpa using hne

end

/-! ### Statements that are closed -/

/-- The table that a statement makes, if it is closed. -/
def Statement.table? : Statement → Option (Table String)
  | closed name body => some (tableOf name body)
  | unclosed _ => none

theorem tables_read (ss : List Statement) : (read ss).tables = ss.filterMap Statement.table? := by
  induction ss with
  | nil => rfl
  | cons s ss ih =>
    rw [← List.singleton_append, read_append, List.filterMap_append, ← ih]
    cases s <;> rfl

theorem name_tableOf (name body : List Char) : (tableOf name body).name = String.ofList name :=
  (draftOf_grows .start name body).name

/-- **No header is passed over** that would have been closed. -/
theorem exists_closed_iff {cs : List Char} : (∃ s ∈ statements cs, s.Closed) ↔
    ∃ ds name rest, ds <:+ cs ∧ headerHere? ds = some (name, rest) ∧
      closing? ⟨1, none⟩ rest ≠ none := by
  induction cs using statements.induct with
  | case1 cs h =>
    have hnone := search?_eq_none_iff.1 h
    rw [statements_of_none h]
    constructor
    · rintro ⟨s, hs, -⟩
      cases hs
    · rintro ⟨ds, name, rest, hds, hf, -⟩
      rw [hnone ds hds] at hf
      cases hf
  | case2 cs name rest h hi ih =>
    obtain ⟨a, x, rfl, -, -, hother⟩ := exists_of_header? h
    rw [statements_unclosed h hi]
    constructor
    · rintro ⟨s, hs, hc⟩
      rcases List.mem_cons.1 hs with rfl | hs
      · cases hc
      · obtain ⟨ds, name', rest', hds, hf⟩ := ih.1 ⟨s, hs, hc⟩
        refine ⟨ds, name', rest', hds.trans ⟨a ++ (x ++ ['(']), by simp⟩, hf⟩
    · rintro ⟨ds, name', rest', hds, hf, hc⟩
      rcases hother ds name' rest' hds hf with rfl | hds
      · exact absurd hi hc
      · obtain ⟨s, hs, hsc⟩ := ih.2 ⟨ds, name', rest', hds, hf, hc⟩
        exact ⟨s, .tail _ hs, hsc⟩
  | case3 cs name rest h i hi _ =>
    obtain ⟨a, x, rfl, -, hx, -⟩ := exists_of_header? h
    rw [statements_closed h hi]
    refine iff_of_true ⟨_, .head _, trivial⟩ ⟨x ++ '(' :: rest, name, rest, ?_, hx, ?_⟩
    · exact List.suffix_append a _
    · rw [hi]; simp

/-- Every round of reading goes past a parenthesis. -/
theorem length_statements_le (cs : List Char) : (statements cs).length ≤ cs.count '(' := by
  have hcount : ∀ a x rest : List Char,
      rest.count '(' + 1 ≤ (a ++ (x ++ '(' :: rest)).count '(' := by
    intro a x rest
    simp only [List.count_append, List.count_cons_self]
    omega
  induction cs using statements.induct with
  | case1 cs h => rw [statements_of_none h]; exact Nat.zero_le _
  | case2 cs name rest h hi ih =>
    obtain ⟨a, x, rfl, -⟩ := exists_of_header? h
    rw [statements_unclosed h hi]
    exact (Nat.succ_le_succ ih).trans (hcount a x rest)
  | case3 cs name rest h i hi ih =>
    obtain ⟨a, x, rfl, -⟩ := exists_of_header? h
    have hdrop : (rest.drop (i + 1)).count '(' ≤ rest.count '(' :=
      (List.drop_sublist _ _).count_le '('
    rw [statements_closed h hi]
    exact (Nat.succ_le_succ (ih.trans hdrop)).trans (hcount a x rest)

/-! ### The places of statements -/

/-- The place of a statement with the text `v` before it. -/
theorem span_makes {v x name body after : List Char}
    (h : headerHere? (x ++ '(' :: (body ++ ')' :: after)) = some (name, body ++ ')' :: after))
    (hw : WellFormed body) :
    Span.Makes (v ++ (x ++ '(' :: (body ++ ')' :: after)))
      ⟨v.length, (v ++ x).length, (v ++ x).length + 1 + body.length⟩ (tableOf name body) := by
  have hat := headerAt_append (v := v) h
  have hbody : between (v ++ (x ++ '(' :: (body ++ ')' :: after))) (v ++ x).length
      ((v ++ x).length + 1 + body.length) = body := by
    rw [between, slice, List.drop_take, drop_open, Nat.add_sub_cancel_left, List.take_left]
  have hname : (tableOf name body).name.toList = name := by rw [name_tableOf, String.toList_ofList]
  have hx : x ≠ [] := by
    rintro rfl
    rw [List.nil_append, headerHere?_cons (by decide)] at h
    cases h
  constructor
  · rw [hname]; exact hat
  · show v.length < (v ++ x).length
    rw [List.length_append]
    exact Nat.lt_add_of_pos_right (List.length_pos_iff.2 hx)
  · rw [closingIndex_open hat.paren, drop_open, closing?_body.2 ⟨body, after, rfl, rfl, hw⟩]
    simp
  · show (v ++ x).length < (v ++ x).length + 1 + body.length
    omega
  · rw [hname, hbody]

/-- The statements that make tables stand one behind the other, behind what has been read before. -/
theorem exists_spans (cs : List Char) : ∀ v : List Char, ∃ spans : List Span,
    List.Forall₂ (Span.Makes (v ++ cs)) spans ((statements cs).filterMap Statement.table?) ∧
      spans.Pairwise (fun s t => s.closing < t.head) ∧ ∀ s ∈ spans, v.length ≤ s.head := by
  induction cs using statements.induct with
  | case1 cs h =>
    intro v
    rw [statements_of_none h]
    exact ⟨[], .nil, .nil, by simp⟩
  | case2 cs name rest h hi ih =>
    obtain ⟨a, x, rfl, -⟩ := exists_of_header? h
    intro v
    obtain ⟨spans, hmakes, hsep, hbehind⟩ := ih (v ++ (a ++ (x ++ ['('])))
    have hcs : v ++ (a ++ (x ++ ['('])) ++ rest = v ++ (a ++ (x ++ '(' :: rest)) := by simp
    rw [hcs] at hmakes
    rw [statements_unclosed h hi]
    refine ⟨spans, hmakes, hsep, fun s hs => ?_⟩
    have := hbehind s hs
    rw [List.length_append] at this
    omega
  | case3 cs name rest h i hi ih =>
    obtain ⟨a, x, rfl, hopen, hx, -⟩ := exists_of_header? h
    obtain ⟨body, after, rfl, rfl, hw⟩ := closing?_body.1 hi
    intro v
    have hafter : (body ++ ')' :: after).drop (body.length + 1) = after := List.drop_length_add_append 1
    rw [hafter] at ih
    obtain ⟨spans, hmakes, hsep, hbehind⟩ := ih (v ++ (a ++ (x ++ '(' :: (body ++ [')']))))
    have hcs : v ++ (a ++ (x ++ '(' :: (body ++ [')']))) ++ after =
        (v ++ a) ++ (x ++ '(' :: (body ++ ')' :: after)) := by simp
    have hcs' : v ++ (a ++ (x ++ '(' :: (body ++ ')' :: after))) =
        (v ++ a) ++ (x ++ '(' :: (body ++ ')' :: after)) := by simp
    rw [statements_body h hw, hcs']
    rw [hcs] at hmakes
    have hspan := span_makes (v := v ++ a) hx hw
    have hlen : (v ++ (a ++ (x ++ '(' :: (body ++ [')'])))).length =
        (v ++ a ++ x).length + 1 + body.length + 1 := by
      simp only [List.length_append, List.length_cons, List.length_nil]
      omega
    rw [hlen] at hbehind
    refine ⟨_ :: spans, .cons hspan hmakes, .cons (fun s hs => hbehind s hs) hsep, ?_⟩
    refine List.forall_mem_cons.2 ⟨?_, fun s hs => ?_⟩
    · show v.length ≤ (v ++ a).length
      rw [List.length_append]; exact Nat.le_add_right _ _
    · have := hbehind s hs
      simp only [List.length_append] at this
      omega

/-! ### What is reported -/

/-- The error that is reported for a script, the empty text if there is none. -/
def errorOf (script : String) : String :=
  match (extract script).1 with
  | .ok _ => ""
  | .error d => d.message

theorem extract_fst (script : String) :
    (extract script).1 = .ok (schemaOf script) ∧ Accepted script ∨
      (extract script).1 = .error .noStatements ∧ ¬ Accepted script ∧ schemaOf script = .empty := by
  rw [accepted_iff, schemaOf_eq]
  cases ht : (progressOf script.toList).tables with
  | nil =>
    have hr : (progressOf script.toList).relationships = [] := relationships_read ht
    exact .inr ⟨by simp [extract, ht], by simp, by rw [hr]; rfl⟩
  | cons t ts => exact .inl ⟨by simp [extract, ht], by simp⟩

theorem Statement.isSome_table?_iff {s : Statement} : s.table?.isSome ↔ s.Closed := by
  cases s <;> simp [table?, Closed]

theorem accepted_iff_exists_closed (script : String) :
    Accepted script ↔ ∃ s ∈ statements (clean script.toList), s.Closed := by
  have ht : (progressOf script.toList).tables =
      (statements (clean script.toList)).filterMap Statement.table? := tables_read _
  rw [accepted_iff, ht, ← not_iff_not, not_not, List.filterMap_eq_nil_iff]
  push Not
  refine forall₂_congr fun s _ => ?_
  rw [← Statement.isSome_table?_iff, Option.not_isSome_iff_eq_none]

theorem accepted_iff_exists_headerAt (script : String) :
    Accepted script ↔ ∃ name head opening, HeaderAt (clean script.toList) name head opening ∧
      closingIndex (clean script.toList) opening ≠ .ok (-1) := by
  rw [accepted_iff_exists_closed, exists_closed_iff]
  constructor
  · rintro ⟨ds, name, rest, ⟨v, hv⟩, hf, hc⟩
    obtain ⟨x, rfl, -⟩ := exists_of_headerHere? hf
    have hat := headerAt_append (v := v) hf
    rw [← hv]
    refine ⟨name, v.length, (v ++ x).length, hat, ?_⟩
    rwa [closingIndex_ne_iff hat.paren, drop_open]
  · rintro ⟨name, head, opening, hat, hc⟩
    exact ⟨_, name, _, List.drop_suffix _ _, hat.read, (closingIndex_ne_iff hat.paren).1 hc⟩

theorem exists_makes_tables (script : String) : ∃ spans,
    List.Forall₂ (Span.Makes (clean script.toList)) spans (schemaOf script).tables ∧
      spans.Pairwise fun s t => s.closing < t.head := by
  obtain ⟨spans, hmakes, hsep, -⟩ := exists_spans (clean script.toList) []
  have ht : (schemaOf script).tables =
      (statements (clean script.toList)).filterMap Statement.table? := by
    rw [schemaOf_eq]
    exact tables_read _
  exact ⟨spans, ht ▸ hmakes, hsep⟩

/-- **A script has a schema** exactly if some header in it has a closing parenthesis. -/
theorem extract_outcome (script : String) :
    let cs := clean script.toList
    (errorOf script = "" ↔ ∃ name head opening, HeaderAt cs name head opening ∧
        closingIndex cs opening ≠ .ok (-1)) ∧
      (errorOf script ≠ "" →
        errorOf script = "No CREATE TABLE statements found" ∧ schemaOf script = .empty) ∧
      ¬ "Parse error: ".toList <+: (errorOf script).toList ∧
      (statements cs).length ≤ cs.count '(' ∧
      ∃ spans, List.Forall₂ (Span.Makes cs) spans (schemaOf script).tables ∧
        spans.Pairwise fun s t => s.closing < t.head := by
  intro cs
  have hacc := accepted_iff_exists_headerAt script
  have hrounds := length_statements_le cs
  have hspans := exists_makes_tables script
  rcases extract_fst script with ⟨hok, h⟩ | ⟨herr, h, hempty⟩
  · have he : errorOf script = "" := by rw [errorOf, hok]
    exact ⟨iff_of_true he (hacc.1 h), fun hne => absurd he hne, by rw [he]; decide, hrounds, hspans⟩
  · have he : errorOf script = "No CREATE TABLE statements found" := by rw [errorOf, herr]; rfl
    have hne : errorOf script ≠ "" := by rw [he]; decide
    exact ⟨iff_of_false hne fun hh => h (hacc.2 hh), fun _ => ⟨he, hempty⟩, by rw [he]; decide,
      hrounds, hspans⟩

/-- A header that is never closed does not keep the next one from being read. -/
example : (schemaOf "create table a (x create table b (y int)").tables.map Table.name = ["b"] := by
  decide +kernel

end ErCanvas.Sql
