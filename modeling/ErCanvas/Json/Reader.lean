import ErCanvas.Json.Basic
import ErCanvas.Text.Encoding
import ErCanvas.Text.Numeral

/-! # Reading documents

A document is read from its text with the exact place and cause of a failure. Besides the standard
form the words for infinities and for what is no number are read; of entries with the same key the
last one counts, in the place of the first. Only so many lists and objects may be open at once; how
many, depends on the reader. -/

namespace ErCanvas.Json

/-- Why a text is not a document. -/
inductive Defect where
  | noValue
  | noName
  | noColon
  | noComma
  | extraData
  | unterminated
  | control
  | badEscape
  | badCode
  | byteOrderMark
deriving DecidableEq, Repr

/-- The wording of a defect. -/
def Defect.message : Defect → String
  | noValue => "Expecting value"
  | noName => "Expecting property name enclosed in double quotes"
  | noColon => "Expecting ':' delimiter"
  | noComma => "Expecting ',' delimiter"
  | extraData => "Extra data"
  | unterminated => "Unterminated string starting at"
  | control => "Invalid control character at"
  | badEscape => "Invalid \\escape"
  | badCode => "Invalid \\uXXXX escape"
  | byteOrderMark => "Unexpected UTF-8 BOM (decode using utf-8-sig)"

/-- The two kinds of values that hold others. -/
inductive Holder where
  | list
  | object
deriving DecidableEq, Repr

/-- A failed reading. A defect stands where `rest` begins. -/
inductive Failure where
  | defect (cause : Defect) (rest : List Char)
  /-- Too many lists and objects are open. -/
  | tooDeep (holder : Holder)
  /-- A whole number has too many digits. -/
  | tooLong (digits : Nat)
  /-- What is read is not a text. -/
  | notText (kind : String)

/-- What has been read, and the rest of the text. -/
abbrev Reading (α : Type) := Except Failure (α × List Char)

/-- The number of lists and objects that may be open at once where a text is read by the command line.
The stack is what limits it, so that less is left to a reader that is called from deeper down. -/
def depthLimit : Nat := 990

/-! ### Wording -/

/-- The place of a code in a text: line and column from one, and the number of codes before it. Only the
line feed ends a line. -/
structure Place where
  line : Nat
  column : Nat
  offset : Nat

/-- The place after some text. -/
def Place.after (before : List Char) : Place :=
  let before := Text.codes before
  let last := before.reverse.takeWhile (· != '\n'.toNat)
  ⟨before.count '\n'.toNat + 1, last.length + 1, before.length⟩

/-- The wording of a failure to read `text`. -/
def Failure.message (text : List Char) : Failure → String
  | defect cause rest =>
    let place := Place.after (text.take (text.length - rest.length))
    cause.message ++ ": line " ++ toString place.line ++ " column " ++ toString place.column ++
      " (char " ++ toString place.offset ++ ")"
  | tooDeep .list =>
    "maximum recursion depth exceeded while decoding a JSON array from a unicode string"
  | tooDeep .object =>
    "maximum recursion depth exceeded while decoding a JSON object from a unicode string"
  | tooLong digits => (Fault.tooManyDigits digits).message
  | notText kind => "the JSON object must be str, bytes or bytearray, not " ++ kind

/-! ### Texts -/

/-- White space between the parts of a document. -/
def isSpace (c : Char) : Bool := c == ' ' || c == '\n' || c == '\t' || c == '\r'

def skipSpace (cs : List Char) : List Char := cs.dropWhile isSpace

/-- The value of the first four characters as hexadecimal digits. -/
def code? : List Char → Option Nat
  | a :: b :: c :: d :: _ => do
    let a ← Text.hexValue? a
    let b ← Text.hexValue? b
    let c ← Text.hexValue? c
    let d ← Text.hexValue? d
    return ((a * 16 + b) * 16 + c) * 16 + d
  | _ => none

/-- The code that an escape stands for and the length of the escape behind the `u`: four digits, or the
two halves of a pair. `start` begins with the `u`, `cs` comes after it. -/
def codeEscape (start cs : List Char) : Except Failure (Nat × Nat) :=
  if cs.length < 5 then .error (.defect .badCode start)
  else match code? cs with
    | none => .error (.defect .badCode start)
    | some high =>
      match cs.drop 4 with
      | '\\' :: 'u' :: low =>
        if Text.isFirstHalf high && 5 ≤ low.length then
          match code? low with
          | none => .error (.defect .badCode ('u' :: low))
          | some n =>
            if Text.isSecondHalf n then .ok (Text.joinHalves high n, 10)
            else .ok (high, 4)
        else .ok (high, 4)
      | _ => .ok (high, 4)

/-- The character that a one-letter escape stands for. -/
def letterEscape? : Char → Option Char
  | '"' => some '"'
  | '\\' => some '\\'
  | '/' => some '/'
  | 'b' => some '\x08'
  | 'f' => some '\x0c'
  | 'n' => some '\n'
  | 'r' => some '\r'
  | 't' => some '\t'
  | _ => none

/-- The rest of a text behind its opening quote; `opening` begins with that quote, `seen` holds the
characters read so far, the last one first. -/
def textRest (opening seen : List Char) (cs : List Char) : Reading String :=
  match cs with
  | [] => .error (.defect .unterminated opening)
  | c :: rest =>
    if c = '"' then .ok (String.ofList seen.reverse, rest)
    else if c = '\\' then
      match rest with
      | [] => .error (.defect .unterminated opening)
      | e :: rest' =>
        if e = 'u' then
          match codeEscape rest rest' with
          | .error f => .error f
          | .ok (x, n) => textRest opening ((Text.spelling x).reverse ++ seen) (rest'.drop n)
        else match letterEscape? e with
          | some x => textRest opening (x :: seen) rest'
          | none => .error (.defect .badEscape cs)
    else if c.toNat < 32 then .error (.defect .control cs)
    else textRest opening (c :: seen) rest
termination_by cs.length
decreasing_by all_goals (simp only [List.length_cons, List.length_drop]; omega)

/-! ### Numbers -/

/-- The digits behind a point, if the point has any. -/
def fractionPart : List Char → List Char × List Char
  | '.' :: d :: rest => if d.isDigit then Text.spanDigits (d :: rest) else ([], '.' :: d :: rest)
  | cs => ([], cs)

/-- The exponent, if one with digits follows. -/
def exponentPart (cs : List Char) : Option Int × List Char :=
  match cs with
  | [] => (none, [])
  | c :: rest =>
    if c = 'e' || c = 'E' then
      let (negative, digits) := Text.splitSign rest
      let (digits, rest) := Text.spanDigits digits
      if digits.isEmpty then (none, cs)
      else (some (Text.signed negative (Text.digitsValue digits)), rest)
    else (none, cs)

/-- The digits before the point: a single zero, or digits that do not start with one. -/
def wholePart : List Char → List Char × List Char
  | '0' :: rest => (['0'], rest)
  | cs => Text.spanDigits cs

/-- A number; `start` is where a missing one is reported. It is whole if it has neither a point nor an
exponent. -/
def numberRest (start : List Char) (negative : Bool) (cs : List Char) : Reading Json :=
  let (whole, rest) := wholePart cs
  if whole.isEmpty then .error (.defect .noValue start)
  else
    let (fraction, rest) := fractionPart rest
    let (exponent, rest) := exponentPart rest
    if fraction.isEmpty && exponent.isNone then
      if Fault.digitLimit < whole.length then .error (.tooLong whole.length)
      else .ok (int (Text.signed negative (Text.digitsValue whole)), rest)
    else
      let d := Text.decimalOf negative whole fraction (exponent.getD 0)
      .ok (num (.float d.toBinary64), rest)

/-! ### Values -/

/-- The words of the format. -/
def words : List (List Char × Json) := [
  ("null".toList, null), ("true".toList, bool true), ("false".toList, bool false),
  ("NaN".toList, num (.float .nan)), ("Infinity".toList, num (.float (.infinity false))),
  ("-Infinity".toList, num (.float (.infinity true)))]

/-- The word that the text starts with. -/
def word? (cs : List Char) : Option (Json × List Char) :=
  words.findSome? fun (w, v) => if w.isPrefixOf cs then some (v, cs.drop w.length) else none

/-- A value; lists and objects are read behind their opening bracket by the given readers. -/
def valueWith (list object : List Char → Reading Json) (cs : List Char) : Reading Json :=
  match cs with
  | '"' :: rest => (textRest cs [] rest).map fun (s, rest) => (str s, rest)
  | '[' :: rest => list rest
  | '\x7b' :: rest => object rest
  | _ =>
    match word? cs with
    | some r => .ok r
    | none =>
      match cs with
      | '-' :: rest => numberRest cs true rest
      | _ => numberRest cs false cs

/-- The items of a list up to its closing bracket, at most `fuel` of them. -/
def items (value : List Char → Reading Json) : Nat → List Json → List Char → Reading Json
  | 0, _, cs => .error (.defect .noValue cs)
  | fuel + 1, seen, cs =>
    match value cs with
    | .error f => .error f
    | .ok (v, rest) =>
      match skipSpace rest with
      | ']' :: rest => .ok (arr (v :: seen).reverse, rest)
      | ',' :: rest => items value fuel (v :: seen) (skipSpace rest)
      | rest => .error (.defect .noComma rest)

/-- A list behind its opening bracket. -/
def listRest (value : List Char → Reading Json) (cs : List Char) : Reading Json :=
  match skipSpace cs with
  | ']' :: rest => .ok (arr [], rest)
  | rest => items value (rest.length + 1) [] rest

/-- The entries of an object up to its closing bracket, at most `fuel` of them. -/
def fields (value : List Char → Reading Json) :
    Nat → List (String × Json) → List Char → Reading Json
  | 0, _, cs => .error (.defect .noName cs)
  | fuel + 1, seen, cs =>
    match cs with
    | '"' :: rest =>
      match textRest cs [] rest with
      | .error f => .error f
      | .ok (k, rest) =>
        match skipSpace rest with
        | ':' :: rest =>
          match value (skipSpace rest) with
          | .error f => .error f
          | .ok (v, rest) =>
            match skipSpace rest with
            | '\x7d' :: rest => .ok (obj (insert k v seen), rest)
            | ',' :: rest => fields value fuel (insert k v seen) (skipSpace rest)
            | rest => .error (.defect .noComma rest)
        | rest => .error (.defect .noColon rest)
    | _ => .error (.defect .noName cs)

/-- An object behind its opening bracket. -/
def objectRest (value : List Char → Reading Json) (cs : List Char) : Reading Json :=
  match skipSpace cs with
  | '\x7d' :: rest => .ok (obj [], rest)
  | rest => fields value (rest.length + 1) [] rest

/-- A value inside which `depth` lists and objects may be opened. -/
def value : Nat → List Char → Reading Json
  | 0 => valueWith (fun _ => .error (.tooDeep .list)) (fun _ => .error (.tooDeep .object))
  | depth + 1 => valueWith (listRest (value depth)) (objectRest (value depth))

/-- Reads a document in which at most `depth` lists and objects may be open at once. -/
def read (s : String) (depth : Nat := depthLimit) : Except Failure Json :=
  let cs := s.toList
  if cs.head? = some '\uFEFF' then .error (.defect .byteOrderMark cs)
  else match value depth (skipSpace cs) with
    | .error f => .error f
    | .ok (v, rest) =>
      let rest := skipSpace rest
      if rest.isEmpty then .ok v else .error (.defect .extraData rest)

/-- Reads a document from a value that should be a text, with the wording of a failure. -/
def readValue (v : Json) (depth : Nat := depthLimit) : Except String Json :=
  match v with
  | str s => (read s depth).mapError (Failure.message s.toList)
  | v => .error (Failure.message [] (.notText v.kind))

end ErCanvas.Json
