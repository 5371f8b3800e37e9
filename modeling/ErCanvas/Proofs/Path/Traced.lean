import Mathlib.Data.List.Forall2
import ErCanvas.Path.Svg
import ErCanvas.Proofs.Canvas.Place
import ErCanvas.Proofs.Number.Sign
import ErCanvas.Proofs.Outcome
import ErCanvas.Proofs.Text.Decimal

/-! # Path texts of whole points

A coordinate is written by way of the floating-point number nearest to it, so a path text can be trusted as
far as that number is exact. Whole coordinates up to `2 ^ 53` are written with all their digits, and since no
letter and no number of a path holds a space, the places can be read back from the text.

* `Point.Marks`: the point stands at a place by value, whatever the kind of its coordinates.
* `Path.svg_eq`: the text of a path through whole places.
* `Path.trace`, `trace_svg`: the places read back from a path text.
* `Path.svg_lossless`: two texts are the same only for points that agree by value. -/

namespace ErCanvas

/-! ### Whole coordinates -/

namespace Binary64

variable {x y : Binary64} {q r : ℚ}

/-- What is the same as a rational is that rational, or the negative zero. -/
theorem eq_of_same_num (h : x.same (num q) = true) : x = num q ∨ x = negZero ∧ q = 0 := by
  cases x with
  | nan => cases h
  | infinity s => cases h
  | negZero => exact .inr ⟨rfl, (beq_iff_eq.1 h).symm⟩
  | num p => exact .inl (congrArg num (beq_iff_eq.1 h))

/-- Numbers of known values are the same if the values are. -/
theorem same_iff_of_same_num (hx : x.same (num q) = true) (hy : y.same (num r) = true) :
    x.same y = true ↔ q = r := by
  rcases eq_of_same_num hx with rfl | ⟨rfl, rfl⟩
  · rcases eq_of_same_num hy with rfl | ⟨rfl, rfl⟩ <;> exact beq_iff_eq
  · rcases eq_of_same_num hy with rfl | ⟨rfl, rfl⟩ <;> exact beq_iff_eq

end Binary64

theorem Number.same_eq_exact (x y : Number) : x.same y = x.exact.same y.exact := by
  cases x with
  | float x => rfl
  | int m =>
    cases y with
    | float y => rfl
    | int n =>
      rw [Bool.eq_iff_iff, same_int, beq_iff_eq]
      exact Int.cast_inj.symm.trans beq_iff_eq.symm

namespace Json

variable {v w : Json} {m n : ℤ}

/-- What is the same as a whole number is a number or a truth value. -/
theorem exists_of_same_int (h : v.same (.int n) = true) :
    ∃ x : Number, v.number = .ok x ∧ v.number? = some x ∧ x.exact.same (.num n) = true ∧
      ∀ w, v.same w = w.number?.any (x.same ·) := by
  cases v with
  | num x =>
    refine ⟨x, rfl, rfl, (Number.same_eq_exact x (.int n)).symm.trans h, fun w => ?_⟩
    rw [same]
    cases w.number? <;> rfl
  | bool b =>
    refine ⟨_, rfl, rfl, (Number.same_eq_exact _ (.int n)).symm.trans h, fun w => ?_⟩
    rw [same]
    cases w.number? <;> rfl
  | null => cases h
  | str s => cases h
  | arr items => cases h
  | obj entries => cases h

/-- Values of known whole values are the same if the values are. -/
theorem same_iff_of_same_int (hv : v.same (.int m) = true) (hw : w.same (.int n) = true) :
    v.same w = true ↔ m = n := by
  obtain ⟨x, -, -, hx, hsame⟩ := exists_of_same_int hv
  obtain ⟨y, -, hy, hyn, -⟩ := exists_of_same_int hw
  rw [hsame, hy, Option.any_some, Number.same_eq_exact, Binary64.same_iff_of_same_num hx hyn,
    Int.cast_inj]

end Json

/-- The point stands at a place by value. Its coordinates may be whole numbers, floating-point ones or
truth values, and are not too large to be exact as floating-point numbers. -/
structure Point.Marks (p : Point) (a : Place) : Prop where
  same : p.same a.point = true
  x_le : |a.1| ≤ 2 ^ 53
  y_le : |a.2| ≤ 2 ^ 53

theorem Point.Marks.same_iff {p q : Point} {a b : Place} (hp : p.Marks a) (hq : q.Marks b) :
    p.same q = true ↔ a = b := by
  obtain ⟨hpx, hpy⟩ := Bool.and_eq_true_iff.1 hp.same
  obtain ⟨hqx, hqy⟩ := Bool.and_eq_true_iff.1 hq.same
  rw [Point.same, Bool.and_eq_true, Json.same_iff_of_same_int hpx hqx, Json.same_iff_of_same_int hpy hqy,
    Prod.ext_iff]

/-- Points agree by value if their places are the same. -/
theorem forall₂_same_iff {points points' : List Point} {places places' : List Place}
    (h : List.Forall₂ Point.Marks points places) (h' : List.Forall₂ Point.Marks points' places') :
    List.Forall₂ (fun p q => p.same q = true) points points' ↔ places = places' := by
  induction h generalizing points' places' with
  | nil => cases h' <;> simp
  | cons hp _ ih =>
    cases h' with
    | nil => simp
    | cons hq h' => rw [List.forall₂_cons, hp.same_iff hq, ih h', List.cons.injEq]

namespace Path

/-! ### Path texts -/

/-- **A whole coordinate** is written in its decimal form. -/
theorem coordinate_eq {v : Json} {n : ℤ} (h : v.same (.int n) = true) (hn : |n| ≤ 2 ^ 53) :
    coordinate v = .ok (toString n) := by
  have hbounds := abs_le.1 hn
  have hlimit : n.natAbs ≤ 2 ^ 53 := by omega
  obtain ⟨x, hnumber, -, hx, -⟩ := Json.exists_of_same_int h
  have hconverts : v.toBinary64 = x.toBinary64 := by
    cases v with
    | str s => cases h
    | _ => simp [Json.toBinary64, hnumber]
  -- the number is exact, or the negative zero
  have hfloat : ∃ z : Binary64, x.toBinary64 = .ok z ∧ z.isInteger = true ∧ z.toRat.num = n := by
    cases x with
    | int m =>
      have hx : (m : ℚ) = n := beq_iff_eq.1 hx
      obtain rfl := Int.cast_inj.1 hx
      exact ⟨.num m, by rw [Number.toBinary64, Number.ofRat?, Number.ofRat_intCast hlimit], rfl, rfl⟩
    | float z =>
      refine ⟨z, rfl, ?_⟩
      rcases Binary64.eq_of_same_num hx with hz | ⟨hz, hzero⟩
      · rw [Number.exact] at hz
        subst hz
        exact ⟨rfl, rfl⟩
      · rw [Number.exact] at hz
        subst hz
        exact ⟨rfl, (Int.cast_eq_zero.1 hzero).symm⟩
  obtain ⟨z, hz, hinteger, hnum⟩ := hfloat
  rw [coordinate, hconverts, hz, Outcome.ok_bind, numberText, if_pos hinteger, hnum]
  rfl

/-- The command that leads to a place. -/
def commandTo (letter : String) (a : Place) : String :=
  letter ++ " " ++ toString a.1 ++ " " ++ toString a.2

theorem command_eq {p : Point} {a : Place} (letter : String) (h : p.Marks a) :
    command letter p = .ok (commandTo letter a) := by
  obtain ⟨hx, hy⟩ := Bool.and_eq_true_iff.1 h.same
  rw [command, coordinate_eq hx h.x_le, Outcome.ok_bind, coordinate_eq hy h.y_le]
  rfl

/-- **The text of a path** through whole places. -/
theorem svg_eq {points : List Point} {a : Place} {rest : List Place}
    (h : List.Forall₂ Point.Marks points (a :: rest)) :
    svg points = .ok (String.intercalate " " (commandTo "M" a :: rest.map (commandTo "L"))) := by
  cases h with
  | cons hp h =>
    rename_i p points
    have hlines : points.mapM (command "L") = .ok (rest.map (commandTo "L")) :=
      Outcome.mapM_eq_ok.2 (List.forall₂_map_right_iff.2 (h.imp fun _ _ => command_eq "L"))
    rw [svg, command_eq "M" hp, Outcome.ok_bind, hlines]
    rfl

/-- Behind the first command a space stands in front of every command. -/
theorem intercalate_commandTo (letter : String) (a : Place) (rest : List Place) :
    String.intercalate " " (commandTo letter a :: rest.map (commandTo "L")) =
      letter ++ " " ++ toString a.1 ++ " " ++ toString a.2 ++
        String.join (rest.map fun b => " L " ++ toString b.1 ++ " " ++ toString b.2) := by
  have hletter : (" L " : String) = " " ++ ("L" ++ " ") := rfl
  induction rest generalizing letter a with
  | nil => simp [commandTo]
  | cons b rest ih =>
    rw [List.map_cons, String.intercalate_cons_cons, ih, List.map_cons, String.join_cons, hletter]
    simp only [commandTo, String.append_assoc]

/-! ### Reading back -/

/-- The places that the words of a path lead through, a command letter and two numbers for each; the first
letter is the given one, and the others draw lines. -/
def places? (letter : List Char) : List (List Char) → Option (List Place)
  | [] => some []
  | word :: x :: y :: rest =>
    if word = letter then do
      let x ← (Text.readInt (String.ofList x)).toOption
      let y ← (Text.readInt (String.ofList y)).toOption
      return (x, y) :: (← places? ['L'] rest)
    else none
  | _ => none

/-- The places that a path text leads through. -/
def trace (text : String) : Option (List Place) :=
  if text = "" then some [] else places? ['M'] (text.toList.splitOn ' ')

/-- The words of the command that leads to a place. -/
def wordsTo (letter : String) (a : Place) : List (List Char) :=
  [letter.toList, (toString a.1).toList, (toString a.2).toList]

/-- The words of a command stand in front of those of the commands behind it. -/
theorem splitOn_commandTo {letter : String} (hletter : ' ' ∉ letter.toList) (a : Place) (cs : List Char) :
    ((commandTo letter a).toList ++ ' ' :: cs).splitOn ' ' = wordsTo letter a ++ cs.splitOn ' ' := by
  have hcommand : (commandTo letter a).toList ++ ' ' :: cs =
      letter.toList ++ ' ' :: ((toString a.1).toList ++ ' ' :: ((toString a.2).toList ++ ' ' :: cs)) := by
    simp [commandTo]
  rw [hcommand, List.splitOn_append_cons_self_of_not_mem hletter,
    List.splitOn_append_cons_self_of_not_mem (Text.space_notMem_toString a.1),
    List.splitOn_append_cons_self_of_not_mem (Text.space_notMem_toString a.2)]
  rfl

theorem splitOn_last_commandTo {letter : String} (hletter : ' ' ∉ letter.toList) (a : Place) :
    (commandTo letter a).toList.splitOn ' ' = wordsTo letter a := by
  have hcommand : (commandTo letter a).toList =
      letter.toList ++ ' ' :: ((toString a.1).toList ++ ' ' :: (toString a.2).toList) := by
    simp [commandTo]
  rw [hcommand, List.splitOn_append_cons_self_of_not_mem hletter,
    List.splitOn_append_cons_self_of_not_mem (Text.space_notMem_toString a.1),
    List.splitOn_eq_singleton (Text.space_notMem_toString a.2)]
  rfl

/-- The words of a path text are those of its commands. -/
theorem splitOn_intercalate_commandTo {letter : String} (hletter : ' ' ∉ letter.toList) (a : Place)
    (rest : List Place) :
    (String.intercalate " " (commandTo letter a :: rest.map (commandTo "L"))).toList.splitOn ' ' =
      wordsTo letter a ++ rest.flatMap (wordsTo "L") := by
  induction rest generalizing letter a with
  | nil =>
    rw [List.map_nil, String.intercalate_singleton, splitOn_last_commandTo hletter]
    rfl
  | cons b rest ih =>
    rw [List.map_cons, String.intercalate_cons_cons, String.toList_append, String.toList_append,
      List.append_assoc]
    exact (splitOn_commandTo hletter a _).trans (congrArg (wordsTo letter a ++ ·) (ih (by decide) b))

theorem readInt_toString_of_le {n : ℤ} (hn : |n| ≤ 2 ^ 53) : Text.readInt (toString n) = .ok n := by
  have hbounds := abs_le.1 hn
  have hlimit : n.natAbs ≤ 2 ^ 53 := by omega
  exact Text.readInt_toString (hlimit.trans_lt ((by decide : 2 ^ 53 < 10 ^ 16).trans_le
    (Nat.pow_le_pow_right (by decide) (by decide))))

/-- The place is read back from the words of its command. -/
theorem places?_wordsTo {p : Point} {a : Place} (h : p.Marks a) (letter : String)
    (ws : List (List Char)) :
    places? letter.toList (wordsTo letter a ++ ws) = (places? ['L'] ws).map (a :: ·) := by
  rw [wordsTo, List.cons_append, List.cons_append, List.cons_append, List.nil_append, places?,
    if_pos rfl, String.ofList_toList, String.ofList_toList, readInt_toString_of_le h.x_le,
    readInt_toString_of_le h.y_le]
  cases places? ['L'] ws <;> rfl

theorem places?_words {letter : String} {points : List Point} {a : Place} {rest : List Place}
    (h : List.Forall₂ Point.Marks points (a :: rest)) :
    places? letter.toList (wordsTo letter a ++ rest.flatMap (wordsTo "L")) = some (a :: rest) := by
  induction rest generalizing letter points a with
  | nil =>
    cases h with
    | cons hp _ =>
      rw [List.flatMap_nil, places?_wordsTo hp]
      rfl
  | cons b rest ih =>
    cases h with
    | cons hp h =>
      have hrest : places? ['L'] (wordsTo "L" b ++ rest.flatMap (wordsTo "L")) = some (b :: rest) := ih h
      rw [List.flatMap_cons, places?_wordsTo hp, hrest]
      rfl

/-- **A path text is read back** as the places that it was written for. -/
theorem trace_svg {points : List Point} {places : List Place}
    (h : List.Forall₂ Point.Marks points places) :
    ∃ text, svg points = .ok text ∧ trace text = some places := by
  cases places with
  | nil =>
    cases h
    exact ⟨"", rfl, by decide⟩
  | cons a rest =>
    have hwords := splitOn_intercalate_commandTo (by decide : ' ' ∉ "M".toList) a rest
    refine ⟨_, svg_eq h, ?_⟩
    have hne : String.intercalate " " (commandTo "M" a :: rest.map (commandTo "L")) ≠ "" := by
      intro hempty
      rw [hempty] at hwords
      cases hwords
    rw [trace, if_neg hne, hwords]
    exact places?_words h

/-- **Path texts of whole points lose nothing.** The text of a path through whole places is a move to the
first of them and a line to each of the others, with the decimal forms of the coordinates, which are read as
the coordinates. The places can be read back from the text, and the text is that of other whole points, however
many, exactly when they agree with these by value. -/
theorem svg_lossless {points : List Point} {a : Place} {rest : List Place}
    (h : List.Forall₂ Point.Marks points (a :: rest)) :
    (∃ text, svg points = .ok text ∧
      text = "M " ++ toString a.1 ++ " " ++ toString a.2 ++
        String.join (rest.map fun b => " L " ++ toString b.1 ++ " " ++ toString b.2) ∧
      trace text = some (a :: rest)) ∧
    (∀ b ∈ a :: rest, Text.readInt (toString b.1) = .ok b.1 ∧ Text.readInt (toString b.2) = .ok b.2) ∧
    ∀ points' places', List.Forall₂ Point.Marks points' places' →
      (svg points = svg points' ↔ List.Forall₂ (fun p q => p.same q = true) points points') := by
  obtain ⟨text, htext, htrace⟩ := trace_svg h
  refine ⟨⟨text, htext, ?_, htrace⟩, fun b hb => ?_, fun points' places' h' => ?_⟩
  · have hmove : ("M" ++ " " : String) = "M " := rfl
    rw [svg_eq h, Except.ok.injEq, intercalate_commandTo, hmove] at htext
    exact htext.symm
  · obtain ⟨p, -, hp⟩ := Outcome.exists_of_forall₂ h hb
    exact ⟨readInt_toString_of_le hp.x_le, readInt_toString_of_le hp.y_le⟩
  · obtain ⟨text', htext', htrace'⟩ := trace_svg h'
    rw [forall₂_same_iff h h', htext, htext', Except.ok.injEq]
    constructor
    · rintro rfl
      exact Option.some.inj (htrace.symm.trans htrace')
    · rintro rfl
      exact Except.ok.inj (htext.symm.trans ((svg_eq h).trans ((svg_eq h').symm.trans htext')))

/-- Whole and floating-point coordinates up to the limit, the negative zero among them. -/
def marked : List Point :=
  [⟨.int (2 ^ 53), .int (-2 ^ 53)⟩, ⟨.num (.float (.num 20)), .num (.float .negZero)⟩]

theorem forall₂_marked : List.Forall₂ Point.Marks marked [(2 ^ 53, -2 ^ 53), (20, 0)] :=
  .cons ⟨by decide +kernel, by decide, by decide⟩
    (.cons ⟨by decide +kernel, by decide, by decide⟩ .nil)

theorem svg_lossless_marked :
    List.Forall₂ Point.Marks marked [(2 ^ 53, -2 ^ 53), (20, 0)] ∧
      svg marked = .ok "M 9007199254740992 -9007199254740992 L 20 0" ∧
      trace "M 9007199254740992 -9007199254740992 L 20 0" = some [(2 ^ 53, -2 ^ 53), (20, 0)] ∧
      svg marked ≠ svg [⟨.int (2 ^ 53), .int (-2 ^ 53)⟩, ⟨.int 20, .int 1⟩] := by
  obtain ⟨⟨text, hsvg, htext, htrace⟩, -, hother⟩ := svg_lossless forall₂_marked
  have hwritten : text = "M 9007199254740992 -9007199254740992 L 20 0" := by
    rw [htext]
    decide +kernel
  rw [hwritten] at hsvg htrace
  refine ⟨forall₂_marked, hsvg, htrace, fun heq => ?_⟩
  have hsame := (hother _ [(2 ^ 53, -2 ^ 53), (20, 1)] (.cons ⟨by decide +kernel, by decide, by decide⟩
    (.cons ⟨by decide +kernel, by decide, by decide⟩ .nil))).1 heq
  have hlast := (List.forall₂_cons.1 (List.forall₂_cons.1 hsame).2).1
  cases hlast

end Path

end ErCanvas
