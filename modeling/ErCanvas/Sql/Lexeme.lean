import ErCanvas.Text.Blank
import ErCanvas.Text.Word

/-! # Lexemes

The small parts that statements are made of, each read from the front of a text with the rest handed
on: keywords in any case, white space, words, names in quotes or brackets, qualified names. Every
part that is read makes the text shorter. -/

namespace ErCanvas.Sql

/-! ### Keywords -/

/-- Other letters that a keyword may be written with: the long s for s, the Kelvin sign for k, the
dotted capital and the dotless small i for i. -/
def letterVariants : List (Char × Char) :=
  [('s', 'ſ'), ('k', '\u212A'), ('i', 'İ'), ('i', 'ı')]

/-- The character stands for a letter of a keyword, which is given in lower case. -/
def sameLetter (letter c : Char) : Bool :=
  c.toLower == letter || letterVariants.contains (letter, c)

/-- The text behind a keyword, which is given in lower case. -/
def keyword? : List Char → List Char → Option (List Char)
  | [], cs => some cs
  | _ :: _, [] => none
  | k :: ks, c :: cs => if sameLetter k c then keyword? ks cs else none

/-- The word is the keyword. -/
def isKeyword (keyword word : List Char) : Bool := keyword? keyword word == some []

/-! ### White space -/

def skipBlanks (cs : List Char) : List Char := cs.dropWhile Text.isBlank

/-- The text behind white space, of which there is some. -/
def blanks? : List Char → Option (List Char)
  | [] => none
  | c :: rest => if Text.isBlank c then some (skipBlanks rest) else none

/-- The text behind two or more keywords with white space between them. -/
def phrase? : List (List Char) → List Char → Option (List Char)
  | [], cs => some cs
  | [k], cs => keyword? k cs
  | k :: ks, cs => ((keyword? k cs).bind blanks?).bind (phrase? ks)

/-- The text behind a given character and white space before it. -/
def mark? (m : Char) (cs : List Char) : Option (List Char) :=
  match skipBlanks cs with
  | c :: rest => if c = m then some rest else none
  | [] => none

/-- No word goes on here. -/
def atWordEnd : List Char → Bool
  | [] => true
  | c :: _ => !Text.isWordChar c

/-! ### Names -/

/-- A word and what is behind it. -/
def word? (cs : List Char) : Option (List Char × List Char) :=
  let w := cs.takeWhile Text.isWordChar
  if w.isEmpty then none else some (w, cs.dropWhile Text.isWordChar)

def isOpening (c : Char) : Bool := c == '\x60' || c == '"' || c == '['
def isClosing (c : Char) : Bool := c == '\x60' || c == '"' || c == ']'

/-- Drops a first character that satisfies `p`. -/
def dropOne (p : Char → Bool) : List Char → List Char
  | [] => []
  | c :: rest => if p c then rest else c :: rest

/-- A name, which may stand in quotes or brackets. -/
def name? (cs : List Char) : Option (List Char × List Char) :=
  (word? (dropOne isOpening cs)).map fun (w, rest) => (w, dropOne isClosing rest)

theorem length_dropOne_le (p : Char → Bool) (cs : List Char) :
    (dropOne p cs).length ≤ cs.length := by
  cases cs with
  | nil => simp [dropOne]
  | cons c r => simp only [dropOne]; split <;> simp

theorem length_of_word? {cs w rest : List Char} (h : word? cs = some (w, rest)) :
    rest.length < cs.length := by
  simp only [word?] at h
  split at h
  · cases h
  · rename_i hw
    cases h
    have := congrArg List.length (List.takeWhile_append_dropWhile (p := Text.isWordChar) (l := cs))
    have hpos : 0 < (cs.takeWhile Text.isWordChar).length := by
      rw [List.length_pos_iff]; simpa using hw
    simp only [List.length_append] at this
    omega

theorem length_of_name? {cs w rest : List Char} (h : name? cs = some (w, rest)) :
    rest.length < cs.length := by
  unfold name? at h
  cases hw : word? (dropOne isOpening cs) with
  | none => simp [hw] at h
  | some p =>
    obtain ⟨v, r⟩ := p
    rw [hw] at h
    simp only [Option.map_some, Option.some.injEq, Prod.mk.injEq] at h
    obtain ⟨-, rfl⟩ := h
    have h1 := length_of_word? hw
    have h2 := length_dropOne_le isOpening cs
    have h3 := length_dropOne_le isClosing r
    omega

theorem length_skipBlanks_le (cs : List Char) : (skipBlanks cs).length ≤ cs.length :=
  (List.dropWhile_sublist _).length_le

theorem length_of_mark? {m : Char} {cs rest : List Char} (h : mark? m cs = some rest) :
    rest.length < cs.length := by
  unfold mark? at h
  have hl := length_skipBlanks_le cs
  split at h
  · rename_i c r hc
    split at h
    · cases h; rw [hc] at hl; simp only [List.length_cons] at hl; omega
    · cases h
  · cases h

/-- A name behind names that qualify it, all joined by points; the last one counts. -/
def qualifiedName? (cs : List Char) : Option (List Char × List Char) :=
  match _ : name? cs with
  | none => none
  | some (w, rest) =>
    match _ : mark? '.' rest with
    | none => some (w, rest)
    | some after =>
      match qualifiedName? (skipBlanks after) with
      | some last => some last
      | none => some (w, rest)
termination_by cs.length
decreasing_by
  have h1 := length_of_name? ‹name? cs = some _›
  have h2 := length_of_mark? ‹mark? '.' rest = some _›
  have h3 := length_skipBlanks_le after
  omega

theorem length_of_qualifiedName? {cs w rest : List Char} (h : qualifiedName? cs = some (w, rest)) :
    rest.length < cs.length := by
  fun_induction qualifiedName? cs with
  | case1 => cases h
  | case2 cs v r hn _ => cases h; exact length_of_name? hn
  | case3 cs v r hn after hm last hq ih =>
    cases h
    have h1 := length_of_name? hn
    have h2 := length_of_mark? hm
    have h3 := length_skipBlanks_le after
    have := ih hq
    omega
  | case4 cs v r hn after hm hq ih => cases h; exact length_of_name? hn

/-! ### Lists in parentheses -/

/-- What stands between a parenthesis and the next closing one, if anything, and what is behind. -/
def group? (cs : List Char) : Option (List Char × List Char) :=
  match mark? '(' cs with
  | none => none
  | some rest =>
    match rest.takeWhile (· != ')'), rest.dropWhile (· != ')') with
    | inside, _ :: after => if inside.isEmpty then none else some (inside, after)
    | _, [] => none

/-- The parts of a text between commas. -/
def splitCommas : List Char → List (List Char)
  | [] => [[]]
  | c :: rest =>
    if c = ',' then [] :: splitCommas rest
    else match splitCommas rest with
      | p :: ps => (c :: p) :: ps
      | [] => [[c]]

/-- A quote or bracket around a name. -/
def isNameMark (c : Char) : Bool := isOpening c || isClosing c

/-- The names of a list, without white space, quotes and brackets around them. -/
def names (cs : List Char) : List (List Char) :=
  (((splitCommas cs).map Text.trim).filter (!·.isEmpty)).map (Text.dropWhileBoth isNameMark)

/-! ### Search -/

/-- The first result along the text. -/
def search? {α : Type} (f : List Char → Option α) : List Char → Option α
  | [] => f []
  | c :: rest => match f (c :: rest) with
    | some a => some a
    | none => search? f rest

/-- The text has `part` somewhere in it. -/
def contains (part : List Char) : List Char → Bool
  | [] => part.isEmpty
  | c :: rest => part.isPrefixOf (c :: rest) || contains part rest

end ErCanvas.Sql
