import ErCanvas.Number.Binary64

/-! # Decimal texts of floating-point numbers

`Decimal.toBinary64` gives the number nearest to a decimal, whatever its length and exponent.
`Decimal.shortest` goes back: of the decimals that read back as the number it takes those with the
fewest digits, and of these the nearest. -/

namespace ErCanvas

/-- The decimal `± coefficient · 10 ^ exponent`. -/
structure Decimal where
  negative : Bool
  coefficient : Nat
  exponent : Int
deriving DecidableEq, Repr

namespace Decimal

/-- The number of decimal digits of `n`, one for zero. -/
def digitCount (n : Nat) : Nat := (Nat.toDigits 10 n).length

/-- The rational `n · 10 ^ e`. -/
def scale (n : Nat) (e : Int) : Rat :=
  if 0 ≤ e then ((n * Nat.pow 10 e.toNat : Nat) : Rat) else mkRat n (Nat.pow 10 (-e).toNat)

/-- Decimals whose first digit stands beyond this place are infinite, and those whose first digit
stands as far behind the point are zero. -/
def farPlace : Int := 400

/-- The floating-point number nearest to the decimal. -/
def toBinary64 (d : Decimal) : Binary64 :=
  let place := d.exponent + digitCount d.coefficient
  if d.coefficient = 0 || place < -farPlace then Binary64.zero d.negative
  else if farPlace < place then .infinity d.negative
  else
    let q := scale d.coefficient d.exponent
    let x := Binary64.ofRat (if d.negative then -q else q)
    if x.isZero then Binary64.zero d.negative else x

/-! ### Shortest decimals -/

/-- The greatest `e` with `10 ^ e ≤ q`, for a positive `q`. -/
def floorLog10 (q : Rat) : Int :=
  let bits : Int := Nat.log2 q.num.natAbs - Nat.log2 q.den
  let guess := bits * 30103 / 100000
  if scale 1 (guess + 1) ≤ q then guess + 1
  else if q < scale 1 guess then guess - 1
  else guess

/-- The decimal with the coefficient `c` on the grid `10 ^ e` reads back as `q`. -/
def readsBack (q : Rat) (e : Int) (c : Nat) : Bool :=
  Binary64.ofRat (scale c e) == .num q

/-- The neighbour of `q` on the grid `10 ^ e` that reads back, the nearer one of two. -/
def onGrid? (q : Rat) (e : Int) : Option Nat :=
  let s := q / scale 1 e
  let low := s.floor.toNat
  let fraction := s - (low : Rat)
  match readsBack q e low, readsBack q e (low + 1) with
  | true, true =>
    if fraction < 1 / 2 || (fraction = 1 / 2 && low % 2 = 0) then some low else some (low + 1)
  | true, false => some low
  | false, true => some (low + 1)
  | false, false => none

/-- The decimal with the fewest digits, at most 17, that reads back as the positive number `q`. -/
def shortest (q : Rat) : Decimal :=
  let top := floorLog10 q
  match (List.range 17).findSome? fun (n : Nat) => (onGrid? q (top - n)).map (·, top - n) with
  | some (c, e) => ⟨false, c, e⟩
  | none => ⟨false, (q / scale 1 (top - 16)).floor.toNat, top - 16⟩

/-! ### Layout -/

/-- How a decimal is written: positionally when the exponent of its first digit lies in a range, with
an exponent outside it. -/
structure Style where
  /-- The least exponent that is written positionally. -/
  low : Int
  /-- The least exponent above these that is not. -/
  high : Int
  /-- The least number of digits of a written exponent. -/
  exponentDigits : Nat

/-- From `1e-4` up to, not including, `1e16` numbers are written positionally; exponents have a sign
and at least two digits. -/
def Style.plain : Style := ⟨-4, 16, 2⟩

/-- The digits of `n` with zeros in front up to `width`. -/
def padded (width n : Nat) : List Char :=
  let digits := Nat.toDigits 10 n
  List.replicate (width - digits.length) '0' ++ digits

/-- The text of `0.d₁d₂… · 10 ^ point`, written positionally; a whole number keeps one zero after its
point. -/
def positional (digits : List Char) (point : Int) : List Char :=
  if point ≤ 0 then '0' :: '.' :: List.replicate (-point).toNat '0' ++ digits
  else
    let whole := point.toNat
    if digits.length ≤ whole then
      digits ++ List.replicate (whole - digits.length) '0' ++ ['.', '0']
    else digits.take whole ++ '.' :: digits.drop whole

/-- The text of `0.d₁d₂… · 10 ^ point`, written with an exponent. -/
def scientific (style : Style) (digits : List Char) (point : Int) : List Char :=
  let e := point - 1
  let mantissa := match digits with
    | first :: second :: rest => first :: '.' :: second :: rest
    | single => single
  mantissa ++ 'e' :: (if e < 0 then '-' else '+') :: padded style.exponentDigits e.natAbs

/-- The digits of a coefficient without the zeros at its end. -/
def significant (n : Nat) : List Char :=
  ((Nat.toDigits 10 n).reverse.dropWhile (· == '0')).reverse

/-- The text of a positive number. -/
def write (style : Style) (q : Rat) : List Char :=
  let d := shortest q
  let point := d.exponent + digitCount d.coefficient
  let digits := significant d.coefficient
  if style.low < point && point ≤ style.high then positional digits point
  else scientific style digits point

end Decimal

/-- Spellings of the values that have no digits. -/
structure Binary64.Names where
  nan : String
  infinity : String

/-- The text of a number: the shortest that reads back, with the given spellings for the values that
have no digits. -/
def Binary64.write (names : Binary64.Names) : Binary64 → String
  | .nan => names.nan
  | .infinity s => (if s then "-" else "") ++ names.infinity
  | .negZero => "-0.0"
  | .num q =>
    if q = 0 then "0.0"
    else String.ofList <|
      (if q < 0 then ['-'] else []) ++ Decimal.write Decimal.Style.plain q.abs

/-- The text of a number as it is shown. -/
def Binary64.text : Binary64 → String := Binary64.write ⟨"nan", "inf"⟩

end ErCanvas
