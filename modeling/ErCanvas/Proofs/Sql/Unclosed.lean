import ErCanvas.Proofs.Sql.Creation
import ErCanvas.Proofs.Sql.Quotation
import ErCanvas.Proofs.Sql.Reading

/-! # Statements that are never closed

Where nothing in a script closes more parentheses than it opens, a statement before the script that is left
open stays open. Reading then goes on behind its parenthesis and comes to the headers of the script, as its
own body has none. So the script says what it says alone; only a note is added (`extract_unclosed`).

* `OpenBody`: what stands in the statement up to the semicolon.
* `NeverOut`: the scripts that close no more than they open. -/

namespace ErCanvas.Sql

open Nesting (top surplus)
open Text (isBlank trim dropWhileEnd)

/-- A text without parentheses, quotes, comments and the first word of a header. -/
structure OpenBody (t : List Char) : Prop where
  neutral : ∀ c ∈ t, isNeutral c
  uncommented : Uncommented t
  noCreate : ¬ "create".toList <:+: t.map Char.toLower

/-- No start of the text has more closing than opening parentheses outside quotes. -/
def NeverOut (t : List Char) : Prop :=
  ∀ p, p <+: t → (unquoted none p).count ')' ≤ (unquoted none p).count '('

instance : DecidablePred NeverOut := fun t =>
  decidable_of_iff (∀ p ∈ t.inits, (unquoted none p).count ')' ≤ (unquoted none p).count '(')
    (by simp only [List.mem_inits, NeverOut])

/-! ### The search for the closing parenthesis -/

section

variable {a : List Char} {n : Nesting}

/-- Characters that a scan passes over close nothing. -/
theorem closing?_neutral_append (ha : ∀ c ∈ a, isNeutral c) (d : ℤ) (b : List Char) :
    closing? ⟨d, none⟩ (a ++ b) = (closing? ⟨d, none⟩ b).map (· + a.length) := by
  have hnone : closing? ⟨d, none⟩ a = none := by
    refine closing?_eq_none fun p c hp hs => ?_
    have hc := ha c (hp.subset (by simp))
    simp only [Nesting.closes, Bool.and_eq_true, beq_iff_eq] at hs
    rw [hs.1.2] at hc
    cases hc
  rw [closing?_append_or, hnone, Option.none_or, scan_of_isNeutral ha]

theorem isQuote_of_step (hn : ∀ q ∈ n.quote, isQuote q) (c : Char) :
    ∀ q ∈ (n.step c).quote, isQuote q := by
  intro q hq
  have hscan : n.step c = n.scan [c] := rfl
  rw [hscan, Nesting.scan_eq] at hq
  exact isQuote_of_openQuote hn hq

theorem closing?_blank_cons (hn : ∀ q ∈ n.quote, isQuote q) {c : Char} (hc : isBlank c = true)
    (cs : List Char) : closing? n (c :: cs) = (closing? n cs).map (· + 1) := by
  have hne : c ≠ ')' := by rintro rfl; cases hc
  rw [closing?, step_of_isBlank hn hc, if_neg (by simp [Nesting.closes, hne])]

/-- What closes does so whatever white space stands before it. -/
theorem closing?_collapse_eq_none (hn : ∀ q ∈ n.quote, isQuote q) (blank : Bool) (cs : List Char) :
    closing? n (collapse blank cs) = none ↔ closing? n cs = none := by
  induction cs generalizing n blank with
  | nil => rfl
  | cons c cs ih =>
    rw [collapse]
    by_cases hc : isBlank c = true
    · rw [if_pos hc, closing?_blank_cons hn hc, Option.map_eq_none_iff]
      cases blank with
      | true => exact ih hn true
      | false =>
        rw [if_neg Bool.false_ne_true, closing?_blank_cons hn rfl, Option.map_eq_none_iff]
        exact ih hn true
    · rw [if_neg hc, closing?, closing?]
      split
      · rfl
      · rw [Option.map_eq_none_iff, Option.map_eq_none_iff]
        exact ih (isQuote_of_step hn c) false

end

/-- A statement before such a script stays open in it. -/
theorem NeverOut.closing?_eq_none {s : List Char} (h : NeverOut s) : closing? ⟨1, none⟩ s = none := by
  refine (closing?_eq_none_iff (by decide)).2 fun p hp => ?_
  have hcount := h p hp
  rw [Nesting.scan_eq]
  show (1 : ℤ) ≤ 1 + ((unquoted none p).count '(' - (unquoted none p).count ')')
  omega

theorem NeverOut.closing?_clean {s : List Char} (h : NeverOut s) (hs : Uncommented s) :
    closing? ⟨1, none⟩ (clean s) = none := by
  have hcollapse := (closing?_collapse_eq_none (by simp) false s).2 h.closing?_eq_none
  obtain ⟨x, y, hx, -, he⟩ := Text.exists_trim_eq (collapse false s)
  have hneutral : ∀ c ∈ x, isNeutral c := fun c hc => isNeutral_of_isBlank (hx c hc)
  rw [he, List.append_assoc, closing?_neutral_append hneutral, Option.map_eq_none_iff,
    closing?_append_or, Option.or_eq_none_iff] at hcollapse
  rw [clean_of_uncommented hs]
  exact hcollapse.1

/-! ### Headers -/

/-- A header begins with its first word, in any case. -/
theorem exists_of_header?_ne_none {cs : List Char} (h : header? cs ≠ none) :
    ∃ p, p <:+: cs ∧ p.map Char.toLower = "create".toList := by
  by_contra hno
  refine h (search?_eq_none_iff.2 fun ds hds => ?_)
  have hall : "create".toList.all (· ∉ letterVariants.map Prod.fst) := by decide
  have hletters : ∀ a ∈ "create".toList, a ∉ letterVariants.map Prod.fst := fun a ha =>
    of_decide_eq_true (List.all_eq_true.1 hall a ha)
  have hkey : keyword? "create".toList ds = none := by
    rw [Option.eq_none_iff_forall_ne_some]
    intro r hr
    obtain ⟨p, rfl, hp⟩ := (keyword?_eq_some_of fun a ha c _ =>
      sameLetter_of_not_variant (hletters a ha) c).1 hr
    exact hno ⟨p, (List.prefix_append p r).isInfix.trans hds.isInfix, hp⟩
  rw [headerHere?_eq, phrase?_cons, hkey]
  rfl

section

variable {w : List Char}

theorem prefix_of_prefix_collapse (hw : ∀ c ∈ w, isBlank c = false) {cs : List Char}
    (h : w <+: collapse false cs) : w <+: cs := by
  induction cs generalizing w with
  | nil => exact h
  | cons c cs ih =>
    cases w with
    | nil => exact List.nil_prefix
    | cons d w =>
      rw [collapse] at h
      split at h
      · obtain ⟨rfl, -⟩ := List.cons_prefix_cons.1 h
        cases hw ' ' (.head _)
      · obtain ⟨rfl, hrest⟩ := List.cons_prefix_cons.1 h
        exact List.cons_prefix_cons.2 ⟨rfl, ih (fun e he => hw e (.tail _ he)) hrest⟩

/-- A text without white space that stands in the script when its white space has been collapsed stands in
the script. -/
theorem infix_of_infix_collapse (hw : ∀ c ∈ w, isBlank c = false) {blank : Bool} {cs : List Char}
    (h : w <:+: collapse blank cs) : w <:+: cs := by
  induction cs generalizing blank with
  | nil => exact h
  | cons c cs ih =>
    have htail : w <:+: cs → w <:+: c :: cs := fun h => h.trans (List.suffix_cons c cs).isInfix
    by_cases hc : isBlank c = true
    · rw [collapse, if_pos hc] at h
      cases blank with
      | true => exact htail (ih h)
      | false =>
        rcases List.infix_cons_iff.1 h with hpre | h
        · cases w with
          | nil => exact List.nil_infix
          | cons d w =>
            obtain ⟨rfl, -⟩ := List.cons_prefix_cons.1 hpre
            cases hw ' ' (.head _)
        · exact htail (ih h)
    · have hcollapse : ∀ blank, collapse blank (c :: cs) = c :: collapse false cs :=
        fun _ => if_neg hc
      rw [hcollapse] at h
      rcases List.infix_cons_iff.1 h with hpre | h
      · rw [← hcollapse false] at hpre
        exact (prefix_of_prefix_collapse hw hpre).isInfix
      · exact htail (ih h)

end

/-- What is left of the body has no header. -/
theorem OpenBody.header?_eq_none {t : List Char} (h : OpenBody t) :
    header? (dropWhileEnd isBlank (collapse false t)) = none := by
  by_contra hne
  obtain ⟨p, hp, hlower⟩ := exists_of_header?_ne_none hne
  have hblank : ∀ c ∈ p, isBlank c = false := by
    intro c hc
    have hletter : c.toLower ∈ "create".toList := hlower ▸ List.mem_map_of_mem hc
    have hlow : ∀ d ∈ "create".toList, d.isLower = true := List.all_eq_true.1 (by decide)
    exact Text.isBlank_of_isPlain (Text.isPlain_of_isLower_toLower (hlow _ hletter))
  obtain ⟨b, -, he⟩ := Text.exists_blank_end (collapse false t)
  have hcollapse : p <:+: collapse false t := by
    rw [he]
    exact hp.trans (List.prefix_append _ b).isInfix
  refine h.noCreate (hlower ▸ ?_)
  exact (infix_of_infix_collapse hblank hcollapse).map Char.toLower

/-! ### Reading goes on -/

theorem OpenBody.neutral_rest {t : List Char} (h : OpenBody t) :
    ∀ c ∈ dropWhileEnd isBlank (collapse false t), isNeutral c := by
  intro c hc
  rcases mem_collapse ((Text.dropWhileEnd_sublist isBlank _).subset hc) with rfl | hc
  · rfl
  · exact h.neutral c hc

section

variable (create : Spelling "create".toList) (table : Spelling "table".toList) (name : Word)
  {t s : List Char}

/-- The head of a statement, its body and the script are cleaned apart. -/
theorem exists_clean_unclosed (ht : OpenBody t) (hs : Uncommented s) : ∃ b b', Spaces b ∧ Spaces b' ∧
    clean (sentence [create.text, table.text, name.text] ++ ' ' :: '(' :: (t ++ ';' :: s)) =
      sentence [create.text, table.text, name.text] ++ ' ' :: '(' ::
        (dropWhileEnd isBlank (collapse false t) ++ (b ++ ';' :: (b' ++ clean s))) := by
  have hhead := fragment_head create table name
  have hopen : Tidy ['('] := .of_not_blank (List.forall_mem_singleton.2 rfl)
  have htidy := hhead.tidy.space hopen hhead.ne_nil (by simp)
  generalize sentence [create.text, table.text, name.text] = head at hhead htidy ⊢
  have hfront : Uncommented (head ++ [' ']) := uncommented_of_not_mem fun c hc => by
    rcases List.mem_append.1 hc with hc | hc
    · exact ne_of_isClauseChar (hhead.chars c hc)
    · rw [List.mem_singleton.1 hc]; decide
  have hunclosed : Uncommented (head ++ [' '] ++ '(' :: t) := hfront.append_cons (by decide) ht.uncommented
  have htidy : Tidy (head ++ [' '] ++ ['(']) := by rwa [List.append_assoc]
  obtain ⟨b, b', hb, hb', hclean⟩ := clean_append_semicolon hunclosed hs
  rw [clean_of_uncommented hunclosed, htidy.trim_collapse_append] at hclean
  exact ⟨b, b', hb, hb', by simpa using hclean⟩

/-- The statement is read as one that is not closed, and then the script as if it stood alone. -/
theorem statements_unclosed_append (ht : OpenBody t) (hs : Uncommented s) (hout : NeverOut s) :
    statements (clean (sentence [create.text, table.text, name.text] ++ ' ' :: '(' :: (t ++ ';' :: s))) =
      .unclosed name.text :: statements (clean s) := by
  obtain ⟨b, b', hb, hb', hclean⟩ := exists_clean_unclosed create table name ht hs
  rw [hclean]
  generalize hrest : dropWhileEnd isBlank (collapse false t) ++ (b ++ ';' :: (b' ++ clean s)) = rest
  have hheader := search?_of_some (headerHere?_head create table name rest)
  have hclose : closing? ⟨1, none⟩ rest = none := by
    have hspace : ∀ b : List Char, Spaces b → ∀ c ∈ b, isNeutral c :=
      fun b hb c hc => by rw [hb c hc]; rfl
    have hsemicolon : ∀ c ∈ [';'], isNeutral c := List.forall_mem_singleton.2 rfl
    rw [← hrest, closing?_neutral_append ht.neutral_rest, closing?_neutral_append (hspace b hb),
      ← List.singleton_append, closing?_neutral_append hsemicolon, closing?_neutral_append (hspace b' hb'),
      hout.closing?_clean hs]
    rfl
  have hnext : header? rest = header? (clean s) := by
    rw [← hrest, header?_append ⟨b, hb, rfl⟩, ht.header?_eq_none, header?_spaces_append hb']
    rfl
  rw [statements_unclosed hheader hclose, statements_congr hnext]

end

/-- **A statement that is never closed** does not keep the script behind it from being read: schema and
error are those of the script alone, and a note on the statement comes before its notes. -/
theorem extract_unclosed (name : Word) {t s : String} (ht : OpenBody t.toList)
    (hs : Uncommented s.toList) (hout : NeverOut s.toList) :
    extract ("CREATE TABLE " ++ String.ofList name.text ++ " (" ++ t ++ ";" ++ s) =
      ((extract s).1, .unclosed (String.ofList name.text) :: (extract s).2) := by
  have hstatements := statements_unclosed_append (Spelling.of "CREATE" (by decide) (by decide))
    (Spelling.of "TABLE" (by decide) (by decide)) name ht hs hout
  have htext : ("CREATE TABLE " ++ String.ofList name.text ++ " (" ++ t ++ ";" ++ s).toList =
      sentence ["CREATE".toList, "TABLE".toList, name.text] ++ ' ' :: '(' ::
        (t.toList ++ ';' :: s.toList) := by
    simp [sentence_cons_cons, sentence_singleton]
  have hprogress : progressOf ("CREATE TABLE " ++ String.ofList name.text ++ " (" ++ t ++ ";" ++ s).toList =
      (read [.unclosed name.text]).append (progressOf s.toList) := by
    rw [progressOf, htext]
    refine (congrArg read hstatements).trans ?_
    exact read_append [.unclosed name.text] _
  rw [extract, extract, hprogress]
  rfl

/-- The body of a statement that is left open, with the end of a comment. -/
def openBody : String := " id int,\n total int */ -"

/-- A script with parentheses in quotes, the last of which are never closed. -/
def quotedScript : String := "x ')';\nCREATE TABLE Item (id int); it's ) "

theorem extract_unclosed_orders :
    OpenBody openBody.toList ∧ Uncommented quotedScript.toList ∧ NeverOut quotedScript.toList ∧
      extract ("CREATE TABLE " ++ "orders" ++ " (" ++ openBody ++ ";" ++ quotedScript) =
        (.ok ⟨[⟨"Item", [⟨"id", "int", false, false, true, none⟩]⟩], []⟩, [.unclosed "orders"]) := by
  have hneutral : ∀ c ∈ openBody.toList, isNeutral c := List.all_eq_true.1 (by decide +kernel)
  have ht : OpenBody openBody.toList :=
    ⟨hneutral, ⟨by decide +kernel, by decide +kernel⟩, by decide +kernel⟩
  have hs : Uncommented quotedScript.toList := ⟨by decide +kernel, by decide +kernel⟩
  have hout : NeverOut quotedScript.toList := by decide +kernel
  refine ⟨ht, hs, hout, (extract_unclosed (.of "orders" (by decide)) ht hs hout).trans ?_⟩
  decide +kernel

end ErCanvas.Sql
