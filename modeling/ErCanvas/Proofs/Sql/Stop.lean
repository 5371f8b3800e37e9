import ErCanvas.Proofs.Sql.Semicolon

/-! # Characters that readers stop at

A parenthesis and a quote stand in no keyword, no white space and no name. What is read in front of such a
character does not depend on what stands behind it: the readers are fenced by the character with any text
behind. -/

namespace ErCanvas.Sql

open Text (isBlank isWordChar)

/-- A character that is no part of keywords, white space and names. -/
structure Stop (c : Char) : Prop where
  notBlank : isBlank c = false
  notWord : isWordChar c = false
  notMark : isNameMark c = false
  notLetter : ∀ a : Char, a.isLower → sameLetter a c = false

theorem stop_open : Stop '(' :=
  ⟨by decide, by decide, by decide, fun _ ha => sameLetter_eq_false ha (by decide) (by decide)⟩

theorem stop_apostrophe : Stop '\'' :=
  ⟨by decide, by decide, by decide, fun _ ha => sameLetter_eq_false ha (by decide) (by decide)⟩

namespace Stop

variable {c : Char} (hc : Stop c) (u : List Char)

include hc

theorem keyword?_fenced {k : List Char} (hk : IsKeyword k) :
    Fenced (c :: u) (· ++ c :: u) (keyword? k) :=
  fun cs => keyword?_append_cons (fun a ha => hc.notLetter a (hk.2 a ha)) cs u

theorem name?_fenced : Fenced (c :: u) (Prod.map id (· ++ c :: u)) name? :=
  fun cs => name?_append_cons hc.notWord hc.notMark cs u

theorem skipBlanks_append (cs : List Char) : skipBlanks (cs ++ c :: u) = skipBlanks cs ++ c :: u :=
  Text.dropWhile_append_cons hc.notBlank cs u

theorem skipBlanks_cons : skipBlanks (c :: u) = c :: u := hc.skipBlanks_append u []

theorem blanks?_fenced : Fenced (c :: u) (· ++ c :: u) blanks? := by
  intro cs
  cases cs with
  | nil =>
    show (if isBlank c = true then _ else _) = _
    rw [hc.notBlank]; rfl
  | cons d cs =>
    rw [List.cons_append, blanks?, blanks?, hc.skipBlanks_append]
    split <;> rfl

theorem mark?_fenced {m : Char} (hm : m ≠ c) : Fenced (c :: u) (· ++ c :: u) (mark? m) := by
  intro cs
  rw [mark?, mark?, hc.skipBlanks_append]
  cases skipBlanks cs with
  | nil => exact if_neg hm.symm
  | cons d rest =>
    show (if d = m then some (rest ++ c :: u) else none) = (if d = m then some rest else none).map _
    split <;> rfl

theorem word?_cons : word? (c :: u) = none := by
  rw [word?, List.takeWhile_cons_of_neg (by simp [hc.notWord])]; rfl

theorem name?_cons : name? (c :: u) = none := by
  have hm := hc.notMark
  rw [isNameMark, Bool.or_eq_false_iff] at hm
  rw [name?, dropOne, hm.1]
  simp [hc.word?_cons u]

theorem phrase?_fenced {ks : List (List Char)} (hk : ∀ k ∈ ks, IsKeyword k) (hne : ks ≠ []) :
    Fenced (c :: u) (· ++ c :: u) (phrase? ks) :=
  phrase?_fenced_of (fun k h => hc.keyword?_fenced u (hk k h))
    (fun _ _ _ hf => (hc.blanks?_fenced u).bind hf) hne

theorem qualifiedName?_fenced (hp : '.' ≠ c) :
    Fenced (c :: u) (Prod.map id (· ++ c :: u)) qualifiedName? :=
  qualifiedName?_fenced_of (hc.name?_fenced u) (hc.mark?_fenced u hp)
    (by rw [hc.skipBlanks_cons, qualifiedName?_eq, hc.name?_cons]; rfl)

end Stop

end ErCanvas.Sql
