import ErCanvas.Proofs.Sql.Script

/-! # Scripts with comments in them

A commented script is a list of parts: the characters of a script and, right behind white space, comments
of either kind. Block comments go first, wherever they start, so a line comment that starts a block can
lose its end to a block comment further on (`extract_written_straddled`). Where that does not happen
(`Apart`), a script reads with its comments as it reads without them (`extract_written`).

* `Comment`, `Part`: comments, and what a commented script is made of.
* `written`, `plain`: the script with its comments, and without them. -/

namespace ErCanvas.Sql

open Text (isBlank trim)

/-! ### Commented scripts -/

/-- A comment: a block, or the rest of a line. -/
inductive Comment where
  | block (text : List Char) (closed : ¬ ['*', '/'] <:+: text)
  | line (text : List Char) (single : '\n' ∉ text)

/-- How the comment is written. -/
def Comment.text : Comment → List Char
  | block t _ => '/' :: '*' :: (t ++ ['*', '/'])
  | line t _ => '-' :: '-' :: (t ++ ['\n'])

/-- A part of a commented script. -/
inductive Part where
  | char (c : Char)
  | comment (k : Comment)

def Part.text : Part → List Char
  | char c => [c]
  | comment k => k.text

def Part.char? : Part → Option Char
  | char c => some c
  | comment _ => none

/-- The script with its comments. -/
def written (ps : List Part) : List Char := ps.flatMap Part.text

/-- The script without its comments. -/
def plain (ps : List Part) : List Char := ps.filterMap Part.char?

/-- Every comment stands right behind white space, or behind a comment that does; `blank` says whether
white space stands before the parts. -/
def Placed (blank : Bool) : List Part → Prop
  | [] => True
  | .char c :: ps => Placed (isBlank c) ps
  | .comment _ :: ps => blank = true ∧ Placed true ps

/-- The text starts a block that does not end in it. -/
def OpensBlock (t : List Char) : Prop := ∃ u, '/' :: '*' :: u <:+ t ∧ ¬ ['*', '/'] <:+: u

/-- Where a line comment starts a block that does not end in it, no block ends behind the comment. -/
def Apart : List Part → Prop
  | [] => True
  | .comment (.line t _) :: ps => (OpensBlock t → ¬ ['*', '/'] <:+: written ps) ∧ Apart ps
  | _ :: ps => Apart ps

instance Placed.decidable : (blank : Bool) → (ps : List Part) → Decidable (Placed blank ps)
  | _, [] => .isTrue trivial
  | _, .char c :: ps => Placed.decidable (isBlank c) ps
  | blank, .comment _ :: ps =>
    have := Placed.decidable true ps
    inferInstanceAs (Decidable (blank = true ∧ Placed true ps))

/-! ### Blocks -/

theorem afterBlock?_append {t : List Char} (h : ¬ ['*', '/'] <:+: t) (r : List Char) :
    afterBlock? (t ++ '*' :: '/' :: r) = some r := by
  induction t with
  | nil => rfl
  | cons c t ih =>
    have ht : ¬ ['*', '/'] <:+: t := fun hi => h (hi.trans (List.suffix_cons c t).isInfix)
    rw [List.cons_append, afterBlock?]
    · exact ih ht
    · -- the end would begin with the first character
      rintro u rfl hu
      cases t with
      | nil => cases hu
      | cons d t =>
        obtain ⟨rfl, -⟩ := List.cons.inj hu
        exact h (List.prefix_append ['*', '/'] t).isInfix

theorem afterBlock?_eq_none {t : List Char} : afterBlock? t = none ↔ ¬ ['*', '/'] <:+: t := by
  fun_induction afterBlock? t with
  | case1 t =>
    have hi : ['*', '/'] <:+: '*' :: '/' :: t := (List.prefix_append ['*', '/'] t).isInfix
    simp [hi]
  | case2 c t hc ih =>
    rw [ih, List.infix_cons_iff, not_or]
    refine (and_iff_right ?_).symm
    rintro ⟨u, hu⟩
    obtain ⟨rfl, rfl⟩ := List.cons.inj hu
    exact hc _ rfl rfl
  | case3 => simp

theorem afterBlock?_eq_some {t r : List Char} (h : afterBlock? t = some r) :
    ∃ a, t = a ++ '*' :: '/' :: r ∧ ¬ ['*', '/'] <:+: a := by
  fun_induction afterBlock? t with
  | case1 t =>
    cases h
    exact ⟨[], rfl, by simp⟩
  | case2 c t hc ih =>
    obtain ⟨a, rfl, ha⟩ := ih h
    refine ⟨c :: a, rfl, fun hi => ?_⟩
    rcases List.infix_cons_iff.1 hi with ⟨u, hu⟩ | hi
    · obtain ⟨rfl, rfl⟩ := List.cons.inj hu
      exact hc _ rfl rfl
    · exact ha hi
  | case3 => cases h

theorem dropBlocks_of_some {t r : List Char} (h : afterBlock? t = some r) :
    dropBlocks ('/' :: '*' :: t) = dropBlocks r := by
  rw [dropBlocks, if_pos (by simp)]
  split
  · rename_i h'; cases h.symm.trans h'; rfl
  · rename_i h'; cases h.symm.trans h'

theorem dropBlocks_of_none {t : List Char} (h : afterBlock? t = none) :
    dropBlocks ('/' :: '*' :: t) = '/' :: '*' :: t := by
  rw [dropBlocks, if_pos (by simp)]
  split
  · rename_i h'; cases h.symm.trans h'
  · rfl

theorem dropBlocks_cons {c : Char} {cs : List Char} (h : ¬ (c = '/' ∧ cs.head? = some '*')) :
    dropBlocks (c :: cs) = c :: dropBlocks cs := by
  rw [dropBlocks, if_neg (by simpa using h)]

/-- Where no block is closed nothing is taken out. -/
theorem dropBlocks_of_noBlock {cs : List Char}
    (h : ∀ t, ¬ '/' :: '*' :: (t ++ ['*', '/']) <:+: cs) : dropBlocks cs = cs := by
  induction cs with
  | nil => rw [dropBlocks]
  | cons c cs ih =>
    have ih := ih fun t hi => h t (hi.trans (List.suffix_cons c cs).isInfix)
    by_cases hc : c = '/' ∧ cs.head? = some '*'
    · obtain ⟨rfl, hs⟩ := hc
      obtain ⟨t, rfl⟩ := List.head?_eq_some_iff.1 hs
      refine dropBlocks_of_none (afterBlock?_eq_none.2 ?_)
      rintro ⟨u, v, rfl⟩
      exact h u ⟨[], v, by simp⟩
    · rw [dropBlocks_cons hc, ih]

/-- Without the end of a block there is no block. -/
theorem dropBlocks_of_not_closed {cs : List Char} (h : ¬ ['*', '/'] <:+: cs) : dropBlocks cs = cs :=
  dropBlocks_of_noBlock fun t hi => h ((List.suffix_append ('/' :: '*' :: t) ['*', '/']).isInfix.trans hi)

/-! ### Lines -/

theorem dropLines_true_append {t : List Char} (h : '\n' ∉ t) (r : List Char) :
    dropLines true (t ++ '\n' :: r) = '\n' :: dropLines false r := by
  induction t with
  | nil => rfl
  | cons c t ih =>
    have hc : c ≠ '\n' := fun hc => h (hc ▸ .head _)
    rw [List.cons_append, dropLines, if_pos rfl, if_neg hc]
    exact ih fun hm => h (.tail _ hm)

theorem OpensBlock.of_suffix {t u : List Char} (h : OpensBlock u) (hu : u <:+ t) : OpensBlock t := by
  obtain ⟨v, hv, hc⟩ := h
  exact ⟨v, hv.trans hu, hc⟩

theorem OpensBlock.infix {t : List Char} (h : OpensBlock t) : ['/', '*'] <:+: t := by
  obtain ⟨u, hu, -⟩ := h
  exact (List.prefix_append ['/', '*'] u).isInfix.trans hu.isInfix

/-- What is left of a line comment is its end. The blocks in it have gone before; one that is not closed
in it is not closed at all. -/
theorem dropLines_line {t r : List Char} (ht : '\n' ∉ t) (h : OpensBlock t → ¬ ['*', '/'] <:+: r) :
    dropLines true (dropBlocks (t ++ '\n' :: r)) = '\n' :: dropLines false (dropBlocks r) := by
  induction hn : t.length using Nat.strongRecOn generalizing t with
  | ind n ih =>
    cases t with
    | nil =>
      rw [List.nil_append, dropBlocks_cons (by simp)]
      rfl
    | cons c t =>
      have hct : '\n' ∉ t := fun hm => ht (.tail _ hm)
      by_cases hc : c = '/' ∧ t.head? = some '*'
      · obtain ⟨rfl, hs⟩ := hc
        obtain ⟨u, rfl⟩ := List.head?_eq_some_iff.1 hs
        cases hu : afterBlock? u with
        | some b =>
          obtain ⟨a, rfl, ha⟩ := afterBlock?_eq_some hu
          have hafter : afterBlock? ((a ++ '*' :: '/' :: b) ++ '\n' :: r) = some (b ++ '\n' :: r) := by
            rw [List.append_assoc]
            exact afterBlock?_append ha _
          have hb : b <:+ '/' :: '*' :: (a ++ '*' :: '/' :: b) :=
            ⟨'/' :: '*' :: (a ++ ['*', '/']), by simp⟩
          rw [List.cons_append, List.cons_append, dropBlocks_of_some hafter]
          refine ih b.length ?_ (fun hm => ht (hb.subset hm)) (fun ho => h (ho.of_suffix hb)) rfl
          rw [← hn]
          simp only [List.length_cons, List.length_append]
          omega
        | none =>
          -- no block ends in the comment, so none ends behind it
          have hu := afterBlock?_eq_none.1 hu
          have hr := h ⟨u, List.suffix_rfl, hu⟩
          have hur : ¬ ['*', '/'] <:+: u ++ '\n' :: r :=
            fun hi => (infix_append_cons (by decide) hi).elim hu hr
          have hnone := dropBlocks_of_none (afterBlock?_eq_none.2 hur)
          rw [List.cons_append, List.cons_append, hnone, dropBlocks_of_not_closed hr]
          exact dropLines_true_append ht r
      · have hcr : ¬ (c = '/' ∧ (t ++ '\n' :: r).head? = some '*') := by
          cases t with
          | nil => simp
          | cons d t => exact hc
        have hcn : c ≠ '\n' := fun hcn => ht (hcn ▸ .head _)
        rw [List.cons_append, dropBlocks_cons hcr, dropLines, if_pos rfl, if_neg hcn]
        refine ih t.length ?_ hct (fun ho => h (ho.of_suffix (List.suffix_cons c t))) rfl
        rw [← hn]
        exact Nat.lt_succ_self _

/-! ### Comments -/

/-- What the two passes leave of a part: the line of a line comment still ends. -/
def Part.residue : Part → List Char
  | char c => [c]
  | comment (.block _ _) => []
  | comment (.line _ _) => ['\n']

/-- Behind a character that is not white space the script goes on. -/
theorem head?_written {c : Char} {ps : List Part} (hp : Placed (isBlank c) ps)
    (hc : isBlank c = false) : (written ps).head? = (plain ps).head? := by
  cases ps with
  | nil => rfl
  | cons p ps =>
    cases p with
    | char d => rfl
    | comment k =>
      rw [hc] at hp
      cases hp.1

/-- No block starts with a character of the script. -/
theorem dropBlocks_written_cons {c : Char} {ps : List Part} (hp : Placed (isBlank c) ps)
    (hu : ¬ ['/', '*'] <:+: c :: plain ps) :
    dropBlocks (c :: written ps) = c :: dropBlocks (written ps) := by
  refine dropBlocks_cons ?_
  rintro ⟨rfl, hs⟩
  rw [head?_written hp rfl] at hs
  exact hu (infix_pair hs)

/-- **All comments go**, and nothing else does. -/
theorem dropLines_dropBlocks_written {ps : List Part} {blank : Bool} (hp : Placed blank ps)
    (hu : Uncommented (plain ps)) (ha : Apart ps) :
    dropLines false (dropBlocks (written ps)) = ps.flatMap Part.residue := by
  induction ps generalizing blank with
  | nil =>
    show dropLines false (dropBlocks []) = []
    rw [dropBlocks]; rfl
  | cons p ps ih =>
    cases p with
    | char c =>
      have hplain : plain (.char c :: ps) = c :: plain ps := rfl
      rw [hplain] at hu
      have hrest : Uncommented (plain ps) :=
        ⟨fun hi => hu.noLine (hi.trans (List.suffix_cons _ _).isInfix),
          fun hi => hu.noBlock (hi.trans (List.suffix_cons _ _).isInfix)⟩
      have hline : ¬ (c = '-' ∧ (dropBlocks (written ps)).head? = some '-') := by
        rintro ⟨rfl, hs⟩
        refine hu.noLine (infix_pair ?_)
        have hhead := head?_written hp rfl
        cases ps with
        | nil =>
          rw [written, List.flatMap_nil, dropBlocks] at hs
          cases hs
        | cons p ps =>
          cases p with
          | char d =>
            have hp : Placed (isBlank d) ps := hp
            have hw : written (.char d :: ps) = d :: written ps := rfl
            rw [hw, dropBlocks_written_cons hp hrest.noBlock] at hs
            exact hs
          | comment k => cases hp.1
      show dropLines false (dropBlocks (c :: written ps)) = c :: ps.flatMap Part.residue
      rw [dropBlocks_written_cons hp hu.noBlock, dropLines, if_neg (by simp),
        if_neg (by simpa using hline), ih hp hrest ha]
    | comment k =>
      obtain ⟨-, hp⟩ := hp
      cases k with
      | block t ht =>
        have hw : written (.comment (.block t ht) :: ps) =
            '/' :: '*' :: (t ++ '*' :: '/' :: written ps) := by
          simp [written, Part.text, Comment.text]
        rw [hw, dropBlocks_of_some (afterBlock?_append ht _), ih hp hu ha]
        rfl
      | line t ht =>
        have hw : written (.comment (.line t ht) :: ps) = '-' :: '-' :: (t ++ '\n' :: written ps) := by
          simp [written, Part.text, Comment.text]
        have hline := dropLines_line ht ha.1
        rw [ih hp hu ha.2] at hline
        rw [hw, dropBlocks_cons (by simp), dropBlocks_cons (by simp), dropLines, if_neg (by simp),
          if_pos (by simp), dropLines, if_pos rfl, if_neg (by decide)]
        exact hline

/-- The ends of lines do not count, as white space stands before them. -/
theorem collapse_residue {ps : List Part} {blank : Bool} (hp : Placed blank ps) :
    collapse blank (ps.flatMap Part.residue) = collapse blank (plain ps) := by
  induction ps generalizing blank with
  | nil => rfl
  | cons p ps ih =>
    cases p with
    | char c =>
      show collapse blank (c :: ps.flatMap Part.residue) = collapse blank (c :: plain ps)
      have ih := ih hp
      rw [collapse, collapse]
      split
      · rename_i hc
        rw [hc] at ih
        rw [ih]
      · rename_i hc
        rw [Bool.not_eq_true] at hc
        rw [hc] at ih
        rw [ih]
    | comment k =>
      obtain ⟨rfl, hp⟩ := hp
      have ih := ih hp
      cases k with
      | block t ht => exact ih
      | line t ht => exact ih

theorem clean_written {ps : List Part} (hp : Placed false ps) (hu : Uncommented (plain ps))
    (ha : Apart ps) : clean (written ps) = clean (plain ps) := by
  rw [clean_of_uncommented hu, clean, dropLines_dropBlocks_written hp hu ha, collapse_residue hp]

/-- **Comments behind white space do not count**, as long as no block that a line comment starts goes on
behind it. -/
theorem extract_written {ps : List Part} (hp : Placed false ps) (hu : Uncommented (plain ps))
    (ha : Apart ps) :
    extract (String.ofList (written ps)) = extract (String.ofList (plain ps)) := by
  simp only [extract, progressOf, String.toList_ofList, clean_written hp hu ha]

/-- The characters of a text as parts. -/
def charParts (s : String) : List Part := s.toList.map .char

/-- A script with comments of both kinds: a block with the start of a line comment in it, and a line
comment with the start of a block that never ends. -/
def annotated : List Part :=
  charParts "\n" ++ .comment (.line " CREATE TABLE ghost (x int);".toList (by decide)) ::
    (charParts " " ++ .comment (.block " -- not yet, 'later' ".toList (by decide)) ::
      (charParts "CREATE TABLE Item (\n" ++
        .comment (.line " key, /* the first".toList (by decide)) :: charParts "id int)"))

theorem extract_written_annotated :
    Placed false annotated ∧ Uncommented (plain annotated) ∧ Apart annotated ∧
      String.ofList (written annotated) = "\n-- CREATE TABLE ghost (x int);\n " ++
        "/* -- not yet, 'later' */CREATE TABLE Item (\n-- key, /* the first\nid int)" ∧
      extract (String.ofList (written annotated)) =
        (.ok ⟨[⟨"Item", [⟨"id", "int", false, false, true, none⟩]⟩], []⟩, []) := by
  have hp : Placed false annotated := by decide +kernel
  have hu : Uncommented (plain annotated) := ⟨by decide +kernel, by decide +kernel⟩
  have ha : Apart annotated := by
    refine ⟨fun h => absurd h.infix (by decide +kernel), ?_, trivial⟩
    -- the block that the last comment starts is never ended
    exact fun _ => by decide +kernel
  refine ⟨hp, hu, ha, by decide +kernel, ?_⟩
  rw [extract_written hp hu ha, extract_ofList]
  decide +kernel

/-- A script in which a line comment starts a block, and a block comment further on ends it. -/
def straddled : List Part :=
  charParts "\n" ++ .comment (.line " /*".toList (by decide)) ::
    (charParts "CREATE TABLE t (a int)\n" ++ [.comment (.block [] (by decide))])

/-- **What stands between the two comments is lost**, although both stand behind white space. -/
theorem extract_written_straddled :
    Placed false straddled ∧ (∀ c ∈ plain straddled, isQuote c = false) ∧
      Uncommented (plain straddled) ∧ ¬ ['*', '/'] <:+: plain straddled ∧
      String.ofList (written straddled) = "\n-- /*\nCREATE TABLE t (a int)\n/**/" ∧
      (extract (String.ofList (plain straddled))).1 =
        .ok ⟨[⟨"t", [⟨"a", "int", false, false, true, none⟩]⟩], []⟩ ∧
      (extract (String.ofList (written straddled))).1 = .error .noStatements := by
  have hq : (plain straddled).all (fun c => isQuote c == false) = true := by decide +kernel
  have hq : ∀ c ∈ plain straddled, isQuote c = false :=
    fun c hc => beq_iff_eq.1 (List.all_eq_true.1 hq c hc)
  exact ⟨by decide +kernel, hq, ⟨by decide +kernel, by decide +kernel⟩, by decide +kernel,
    by decide +kernel, by rw [extract_ofList]; decide +kernel, by rw [extract_ofList]; decide +kernel⟩

end ErCanvas.Sql
