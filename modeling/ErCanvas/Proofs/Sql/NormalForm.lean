import ErCanvas.Proofs.Schema.Size
import ErCanvas.Proofs.Sql.Literal
import ErCanvas.Proofs.Sql.Unclosed

/-! # Clean scripts are in normal form

Three passes and a trim clean a script, and each of them takes characters out, so that others come to stand
side by side. What has been a line comment leaves the end of its line, and a run of white space leaves a
space; no second line comment and no second run can arise there. A block comment leaves nothing: the texts
on its two sides can make up a block that was none, and only such a block is found by cleaning the script again.

* `not_infix_clean`: no line comment is left.
* `tidy_clean`: white space is single spaces inside the text.
* `length_dropBlocks_lt`: a block is taken out.
* `clean_normal`: the normal form, and when cleaning again changes nothing. -/

namespace ErCanvas.Sql

open Text (isBlank)

variable {cs : List Char}

/-! ### Line comments -/

/-- What stands behind a hyphen that starts no comment does not begin with one. -/
theorem head?_dropLines_false (h : cs.head? ≠ some '-') : ∀ c ∈ (dropLines false cs).head?, c ≠ '-' := by
  cases cs with
  | nil => exact nofun
  | cons c cs =>
    have hc : c ≠ '-' := fun hc => h (congrArg some hc)
    rw [dropLines, if_neg (by simp), if_neg (by simp [hc])]
    rintro d ⟨⟩
    exact hc

/-- **No two hyphens stand side by side** in a script without its line comments. -/
theorem isChain_dropLines (inside : Bool) (cs : List Char) :
    (dropLines inside cs).IsChain fun c d => ¬ (c = '-' ∧ d = '-') := by
  induction cs generalizing inside with
  | nil => exact .nil
  | cons c cs ih =>
    rw [dropLines]
    cases inside with
    | true =>
      rw [if_pos rfl]
      split
      · rename_i hend
        exact List.isChain_cons.2 ⟨fun _ _ hd => absurd (hend ▸ hd.1) (by decide), ih false⟩
      · exact ih true
    | false =>
      rw [if_neg Bool.false_ne_true]
      split
      · exact ih true
      · rename_i hline
        refine List.isChain_cons.2 ⟨?_, ih false⟩
        rintro d hd ⟨rfl, rfl⟩
        have hhead : cs.head? ≠ some '-' := by simpa using hline
        exact head?_dropLines_false hhead _ hd rfl

theorem not_infix_clean (cs : List Char) : ¬ ['-', '-'] <:+: clean cs := by
  intro h
  have hcollapse := h.trans (Text.trim_infix _)
  have hhyphen : isBlank '-' = false := by decide +kernel
  have hlines := infix_of_infix_collapse (w := ['-', '-']) (by simp [hhyphen]) hcollapse
  have hchain := isChain_dropLines false (dropBlocks cs)
  have hpair := hchain.infix hlines
  exact (List.isChain_cons_cons.1 hpair).1 ⟨rfl, rfl⟩

/-! ### White space -/

/-- Behind white space a collapsed script goes on with something else. -/
theorem head?_collapse_true (cs : List Char) : ∀ c ∈ (collapse true cs).head?, isBlank c = false := by
  induction cs with
  | nil => exact nofun
  | cons c cs ih =>
    rw [collapse]
    split
    · exact ih
    · rename_i hc
      rintro d ⟨⟩
      exact Bool.eq_false_of_not_eq_true hc

/-- **No white space stands behind white space** in a collapsed script. -/
theorem isChain_collapse (blank : Bool) (cs : List Char) :
    (collapse blank cs).IsChain fun c d => isBlank c → isBlank d = false := by
  induction cs generalizing blank with
  | nil => exact .nil
  | cons c cs ih =>
    rw [collapse]
    split
    · split
      · exact ih true
      · exact List.isChain_cons.2 ⟨fun d hd _ => head?_collapse_true cs d hd, ih true⟩
    · rename_i hc
      exact List.isChain_cons.2 ⟨fun _ _ hb => absurd hb hc, ih false⟩

theorem tidy_clean (cs : List Char) : Tidy (clean cs) where
  spaces _ hc := eq_space_of_mem_collapse ((Text.trim_infix _).subset hc)
  single := List.IsChain.infix (isChain_collapse false _) (Text.trim_infix _)
  head := Text.head?_trim _
  last := Text.getLast?_trim _

/-! ### Block comments -/

/-- Behind the first start of a block there is the end of one. -/
theorem infix_behind_start {t u : List Char}
    (h : '/' :: '*' :: (t ++ ['*', '/']) <:+: '/' :: '*' :: u) : ['*', '/'] <:+: u := by
  have hend : ['*', '/'] <:+: '/' :: '*' :: (t ++ ['*', '/']) :=
    (List.suffix_append ('/' :: '*' :: t) ['*', '/']).isInfix
  rcases List.infix_cons_iff.1 h with hpre | h
  · obtain ⟨-, hpre⟩ := List.cons_prefix_cons.1 hpre
    obtain ⟨-, hpre⟩ := List.cons_prefix_cons.1 hpre
    exact (List.suffix_append t ['*', '/']).isInfix.trans hpre.isInfix
  · rcases List.infix_cons_iff.1 h with hpre | h
    · cases (List.cons_prefix_cons.1 hpre).1
    · exact hend.trans h

/-- **A block is taken out**, the first one at least. -/
theorem length_dropBlocks_lt {t : List Char} (h : '/' :: '*' :: (t ++ ['*', '/']) <:+: cs) :
    (dropBlocks cs).length < cs.length := by
  induction cs with
  | nil => exact absurd (List.infix_nil.1 h) (List.cons_ne_nil _ _)
  | cons c cs ih =>
    by_cases hc : c = '/' ∧ cs.head? = some '*'
    · obtain ⟨rfl, hs⟩ := hc
      obtain ⟨u, rfl⟩ := List.head?_eq_some_iff.1 hs
      cases hu : afterBlock? u with
      | none => exact absurd (infix_behind_start h) (afterBlock?_eq_none.1 hu)
      | some r =>
        have hr := length_of_afterBlock? hu
        have hle := length_dropBlocks_le r
        rw [dropBlocks_of_some hu]
        simp only [List.length_cons]
        omega
    · rw [dropBlocks_cons hc]
      refine Nat.succ_lt_succ (ih ((List.infix_cons_iff.1 h).resolve_left fun hpre => ?_))
      obtain ⟨hslash, hstar⟩ := List.cons_prefix_cons.1 hpre
      obtain ⟨u, rfl⟩ := hstar
      exact hc ⟨hslash.symm, rfl⟩

theorem length_clean_lt {t : List Char} (h : '/' :: '*' :: (t ++ ['*', '/']) <:+: cs) :
    (clean cs).length < cs.length :=
  (length_clean_le_dropBlocks cs).trans_lt (length_dropBlocks_lt h)

/-! ### The normal form -/

/-- **A clean script is in normal form.** There is no line comment in it, and its white space is single
spaces inside the text. Cleaning it again changes nothing, unless what was taken out has left the start of
a block and behind it the end of one; then it does. -/
theorem clean_normal (cs : List Char) :
    ¬ ['-', '-'] <:+: clean cs ∧ Tidy (clean cs) ∧
      (clean (clean cs) = clean cs ↔ ∀ t, ¬ '/' :: '*' :: (t ++ ['*', '/']) <:+: clean cs) := by
  refine ⟨not_infix_clean cs, tidy_clean cs, fun heq t ht => ?_, fun hnone => ?_⟩
  · exact (length_clean_lt ht).ne (congrArg List.length heq)
  · have hcommentless : Commentless (clean cs) := ⟨not_infix_clean cs, hnone⟩
    rw [hcommentless.clean_eq, (tidy_clean cs).trim_collapse_eq]

/-- A block between the two halves of the start of another. -/
example : clean "a//**/* b */".toList = "a/* b */".toList ∧ clean "a/* b */".toList = "a".toList := by
  decide +kernel

end ErCanvas.Sql
