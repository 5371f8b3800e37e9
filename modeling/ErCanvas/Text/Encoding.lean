/-! # Encodings of text

A text is a sequence of codes. Most codes are those of characters; the others are the halves of pairs,
which an escape can name on their own, so that a text may hold half of a pair without the other. Every
text here is spelled in characters: a character stands for itself, half of a pair is spelled by a mark
and a character for private use, and the mark itself is doubled. Spelled texts are the same only if their
codes are, and what is read from outside is spelled, and what is shown outside is unspelled, at the very
border.

Most characters have a code of four hexadecimal digits; all others are written as a pair of such codes.
A text may be written in units of one, two or four bytes, and longer units with either end first. A
document starts with ASCII characters, so that the zeros among its first bytes show how it is
written.

* `spelling`, `codes`: how codes are spelled, and the codes that are spelled.
* `Stream`: what a stream makes of a text.
* `Encoding.ofStart`: how a document is written.
* `documentText?`: the text of a document. -/

namespace ErCanvas.Text

/-! ### Codes -/

/-- The code is the first half of a pair. -/
def isFirstHalf (n : Nat) : Bool := 0xD800 ≤ n && n < 0xDC00

/-- The code is the second half of a pair. -/
def isSecondHalf (n : Nat) : Bool := 0xDC00 ≤ n && n < 0xE000

/-- The code is half of a pair, and of no character. -/
def isHalf (n : Nat) : Bool := isFirstHalf n || isSecondHalf n

/-- The code of a pair. -/
def joinHalves (m n : Nat) : Nat := 0x10000 + (m - 0xD800) * 0x400 + (n - 0xDC00)

/-- The mark in front of half of a pair: a code point that is set aside for such use and is no
character of any text that is interchanged. -/
def halfMark : Char := '\uFFFF'

/-- How far behind the halves the characters are that they are spelled with. -/
def halfShift : Nat := 0x800

/-- A code in characters. -/
def spelling (n : Nat) : List Char :=
  if isHalf n then [halfMark, Char.ofNat (n + halfShift)]
  else if Char.ofNat n = halfMark then [halfMark, halfMark]
  else [Char.ofNat n]

/-- The code that is spelled by the mark and a character behind it. -/
def markedCode? (c : Char) : Option Nat :=
  if c = halfMark then some halfMark.toNat
  else if isHalf (c.toNat - halfShift) then some (c.toNat - halfShift)
  else none

/-- The codes that are spelled. A mark that marks nothing stands for itself. -/
def codes : List Char → List Nat
  | [] => []
  | [c] => [c.toNat]
  | c :: d :: rest =>
    if c = halfMark then
      match markedCode? d with
      | some n => n :: codes rest
      | none => c.toNat :: codes (d :: rest)
    else c.toNat :: codes (d :: rest)

/-- The text holds half of a pair. -/
def hasHalf (s : String) : Bool := (codes s.toList).any isHalf

/-- A text from outside, as it is spelled. -/
def spelled (s : String) : String := String.ofList (s.toList.flatMap fun c => spelling c.toNat)

/-- A text without halves, as it is outside. -/
def unspelled (s : String) : String := String.ofList ((codes s.toList).map Char.ofNat)

/-- The lower-case hexadecimal digits of `n`, filled up with zeros to `width`. -/
def hexadecimal (width n : Nat) : List Char :=
  let digits := Nat.toDigits 16 n
  List.replicate (width - digits.length) '0' ++ digits

/-- A code in characters, half of a pair by its digits. -/
def escapeHalf (n : Nat) : List Char :=
  if isHalf n then '\\' :: 'u' :: hexadecimal 4 n else spelling n

/-! ### Streams -/

/-- What becomes of the texts that are written to a stream. -/
inductive Stream where
  /-- They are kept as they are. -/
  | memory
  /-- They are encoded, which no half of a pair can be. -/
  | bytes
  /-- They are encoded, halves of pairs by their digits. -/
  | escapedBytes
deriving DecidableEq, Repr

namespace Stream

/-- The stream takes the text. -/
def takes (out : Stream) (s : String) : Bool := out != bytes || !hasHalf s

/-- What a stream makes of a text that it takes. -/
def written : Stream → String → String
  | memory, s | bytes, s => s
  | escapedBytes, s => String.ofList ((codes s.toList).flatMap escapeHalf)

end Stream

/-! ### Units -/

/-- Which end of a unit comes first. -/
inductive ByteOrder where
  | big
  | little
deriving DecidableEq, Repr

/-- How a text is written. -/
inductive Encoding where
  /-- In units of one byte. -/
  | single
  /-- In units of two bytes. -/
  | double (order : ByteOrder)
  /-- In units of four bytes. -/
  | quadruple (order : ByteOrder)
deriving DecidableEq, Repr

namespace Encoding

/-- How a document is written, judged by its first four bytes, or by all if there are fewer. -/
def ofStart : List UInt8 → Encoding
  | [0, _] => double .big
  | [_, 0] => double .little
  | [0, 0, _, _] => quadruple .big
  | [0, _, _, _] => double .big
  | [_, 0, 0, 0] => quadruple .little
  | [_, 0, _, _] => double .little
  | _ => single

/-- The number of which the bytes are the digits. -/
def unit (order : ByteOrder) (bytes : List UInt8) : Nat :=
  let digits := match order with
    | .big => bytes
    | .little => bytes.reverse
  digits.foldl (fun n b => n * 256 + b.toNat) 0

/-- The units of two bytes, if there are no bytes left over. -/
def doubles? (order : ByteOrder) : List UInt8 → Option (List Nat)
  | [] => some []
  | a :: b :: rest => (doubles? order rest).map (unit order [a, b] :: ·)
  | _ => none

/-- The units of four bytes, if there are no bytes left over. -/
def quadruples? (order : ByteOrder) : List UInt8 → Option (List Nat)
  | [] => some []
  | a :: b :: c :: d :: rest => (quadruples? order rest).map (unit order [a, b, c, d] :: ·)
  | _ => none

/-- The codes of units of two bytes. -/
def ofDoubles : List Nat → List Nat
  | m :: n :: rest =>
    if isFirstHalf m && isSecondHalf n then joinHalves m n :: ofDoubles rest
    else m :: ofDoubles (n :: rest)
  | [m] => [m]
  | [] => []

/-- The codes of units of four bytes, if each is one. -/
def ofQuadruples? (units : List Nat) : Option (List Nat) :=
  if units.all (· < 0x110000) then some units else none

end Encoding

/-- The text of a document of which `text` shows the bytes, if they are those of a text. -/
def documentText? (text : String) : Option String :=
  let bytes := text.toUTF8
  let spell := fun units : List Nat => String.ofList (units.flatMap spelling)
  match Encoding.ofStart (bytes.extract 0 4).toList with
  | .single => some (spelled text)
  | .double order => (Encoding.doubles? order bytes.toList).map (spell ∘ Encoding.ofDoubles)
  | .quadruple order =>
    ((Encoding.quadruples? order bytes.toList).bind Encoding.ofQuadruples?).map spell

end ErCanvas.Text
