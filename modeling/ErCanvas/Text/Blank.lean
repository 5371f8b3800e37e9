/-! # White space

White space is the ASCII blanks with the four separator controls, the next-line control, and the
space, line and paragraph separators of Unicode. The zero width space and the byte order mark are
not white space. -/

namespace ErCanvas.Text

/-- A white space character. -/
def isBlank (c : Char) : Bool :=
  let n := c.toNat
  (9 ≤ n && n ≤ 13) || (28 ≤ n && n ≤ 32) || n == 0x85 || n == 0xA0 || n == 0x1680 ||
    (0x2000 ≤ n && n ≤ 0x200A) || n == 0x2028 || n == 0x2029 || n == 0x202F || n == 0x205F ||
    n == 0x3000

/-- Drops the longest end of a list whose items satisfy `p`. -/
def dropWhileEnd {α : Type} (p : α → Bool) (l : List α) : List α :=
  (l.reverse.dropWhile p).reverse

/-- Drops the items at both ends that satisfy `p`. -/
def dropWhileBoth {α : Type} (p : α → Bool) (l : List α) : List α :=
  dropWhileEnd p (l.dropWhile p)

/-- The text without white space at its start. -/
def trimStart (cs : List Char) : List Char :=
  cs.dropWhile isBlank

/-- The text without white space at its ends. -/
def trim (cs : List Char) : List Char :=
  dropWhileBoth isBlank cs

end ErCanvas.Text
