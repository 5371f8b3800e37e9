import ErCanvas.Fault
import ErCanvas.Text.Blank
import ErCanvas.Text.Digit
import ErCanvas.Number.Decimal

/-! # Numerals

Texts of numbers, as a setting or a coordinate may hold them: blanks around them, a sign, digits of
any script, single underscores between digits; for floating-point numbers also a point, an exponent
and the words for infinity and for what is no number. -/

namespace ErCanvas.Text

/-- A numeral in ASCII: digits of other scripts become ASCII digits, other white space becomes the
space; a character that no numeral holds becomes a question mark. -/
def plainNumeralChar (c : Char) : Char :=
  if c.toNat < 127 then c
  else if isBlank c then ' '
  else match digitValue? c with
    | some d => Char.ofNat (48 + d)
    | none => '?'

/-- The white space that may stand around a numeral. -/
def isNumeralBlank (c : Char) : Bool :=
  c == ' ' || (9 ≤ c.toNat && c.toNat ≤ 13)

/-- Leaves out underscores, each of which stands between two digits; `last` is the character before. -/
def ungroup (last : Char) : List Char → Option (List Char)
  | [] => if last = '_' then none else some []
  | c :: rest =>
    if c = '_' then (if last.isDigit then ungroup c rest else none)
    else if last = '_' && !c.isDigit then none
    else (ungroup c rest).map (c :: ·)

/-- The numeral without blanks around it. -/
def trimNumeral (cs : List Char) : List Char :=
  dropWhileBoth isNumeralBlank (cs.map plainNumeralChar)

/-- The numeral without blanks around it and without underscores. -/
def bareNumeral (cs : List Char) : Option (List Char) := ungroup ' ' (trimNumeral cs)

/-- The value of decimal digits. -/
def digitsValue (cs : List Char) : Nat :=
  cs.foldl (fun n c => n * 10 + (c.toNat - 48)) 0

/-- The sign in front of a numeral, and the rest. -/
def splitSign : List Char → Bool × List Char
  | '-' :: rest => (true, rest)
  | '+' :: rest => (false, rest)
  | cs => (false, cs)

/-- A nonempty text of ASCII digits. -/
def allDigits (cs : List Char) : Bool := !cs.isEmpty && cs.all (·.isDigit)

/-- The whole number with the given sign and magnitude. -/
def signed (negative : Bool) (n : Nat) : Int := if negative then -(n : Int) else n

/-- The character may stand among the digits of a whole number. -/
def isGroupedDigit (c : Char) : Bool := c.isDigit || c == '_'

/-- Reads a whole number. The digits in front are counted before anything behind them is looked at. -/
def readInt (s : String) : Outcome Int :=
  let (negative, cs) := splitSign (trimNumeral s.toList)
  match ungroup ' ' (cs.takeWhile isGroupedDigit) with
  | some (d :: digits) =>
    let count := digits.length + 1
    if Fault.digitLimit < count then .error (.tooManyDigits count)
    else if cs.all isGroupedDigit then .ok (signed negative (digitsValue (d :: digits)))
    else .error (.notInteger s)
  | _ => .error (.notInteger s)

/-- The exponent at the end of a numeral; none written is zero. -/
def exponent? : List Char → Option Int
  | [] => some 0
  | c :: rest =>
    if c = 'e' || c = 'E' then
      let (negative, digits) := splitSign rest
      if allDigits digits then some (signed negative (digitsValue digits)) else none
    else none

/-- Splits off the digits in front. -/
def spanDigits (cs : List Char) : List Char × List Char :=
  (cs.takeWhile (·.isDigit), cs.dropWhile (·.isDigit))

/-- The decimal of whole digits, digits behind the point and an exponent. -/
def decimalOf (negative : Bool) (whole fraction : List Char) (exponent : Int) : Decimal :=
  ⟨negative, digitsValue (whole ++ fraction), exponent - fraction.length⟩

/-- Reads an unsigned decimal. -/
def decimal? (negative : Bool) (cs : List Char) : Option Decimal :=
  let (whole, rest) := spanDigits cs
  let (fraction, rest) := match rest with
    | '.' :: rest => spanDigits rest
    | rest => ([], rest)
  if whole.isEmpty && fraction.isEmpty then none
  else (exponent? rest).map (decimalOf negative whole fraction)

/-- Reads a floating-point number. -/
def readFloat (s : String) : Outcome Binary64 :=
  match (bareNumeral s.toList).map splitSign with
  | none => .error (.notNumber s)
  | some (negative, cs) =>
    let word := String.ofList (cs.map Char.toLower)
    if word = "nan" then .ok .nan
    else if word = "inf" || word = "infinity" then .ok (.infinity negative)
    else match decimal? negative cs with
      | some d => .ok d.toBinary64
      | none => .error (.notNumber s)

end ErCanvas.Text
