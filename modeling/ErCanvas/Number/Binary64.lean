/-! # Binary floating-point numbers of 64 bits

A finite number is the rational it stands for; the negative zero, the infinities and the value that
is no number stand beside. Every operation is the exact one on rationals followed by one rounding
to 53 binary digits, a half going to the even neighbour. A rational that needs no more digits than
that is kept as it is (`ofRat` looks at this first), so sums, differences and halves of moderate
whole numbers are exact. -/

namespace ErCanvas

/-- A binary floating-point number of 64 bits. -/
inductive Binary64 where
  /-- Not a number. -/
  | nan
  | infinity (negative : Bool)
  | negZero
  /-- A finite number other than the negative zero. -/
  | num (q : Rat)
deriving DecidableEq, Hashable, Inhabited

namespace Binary64

/-! ### Rounding -/

/-- The quotient of `n` by `d` to the nearest whole number, a half going to the even neighbour. -/
def roundQuotient (n d : Nat) : Nat :=
  let q := n / d
  let r := n % d
  if 2 * r < d || (2 * r == d && q % 2 == 0) then q else q + 1

/-- The greatest `e` with `2 ^ e ≤ n / d`, for positive `n` and `d`. -/
def floorLog2 (n d : Nat) : Int :=
  let e : Int := Nat.log2 n - Nat.log2 d
  let below := if 0 ≤ e then n < d * Nat.pow 2 e.toNat else n * Nat.pow 2 (-e).toNat < d
  if below then e - 1 else e

/-- The multiple of `2 ^ e` nearest to `n / d`. -/
def roundAt (e : Int) (n d : Nat) : Rat :=
  if 0 ≤ e then ((roundQuotient n (d * Nat.pow 2 e.toNat) * Nat.pow 2 e.toNat : Nat) : Rat)
  else mkRat (roundQuotient (n * Nat.pow 2 (-e).toNat) d) (Nat.pow 2 (-e).toNat)

/-- Finite numbers are multiples of two to this power. -/
def leastExponent : Int := -1074

/-- The magnitude of `n / d` to 53 binary digits, fewer near zero. -/
def roundMagnitude (n d : Nat) : Rat :=
  roundAt (max (floorLog2 n d - 52) leastExponent) n d

/-- The least power of two that is too large. -/
def tooLarge : Rat := (Nat.pow 2 1024 : Rat)

/-- The rational has at most 53 binary digits and none below the least place. -/
def isExact (q : Rat) : Bool :=
  q.num.natAbs ≤ Nat.pow 2 53 &&
    (q.den == 1 || (q.den ≤ Nat.pow 2 1074 && q.den == Nat.pow 2 (Nat.log2 q.den)))

/-- The nearest floating-point number. -/
def ofRat (q : Rat) : Binary64 :=
  if isExact q then num q
  else
    let m := roundMagnitude q.num.natAbs q.den
    if tooLarge ≤ m then infinity (q < 0)
    else if q < 0 then (if m = 0 then negZero else num (-m))
    else num m

/-! ### Parts -/

/-- The rational that a finite number stands for, zero for the others. -/
def toRat : Binary64 → Rat
  | num q => q
  | _ => 0

/-- The sign is negative. -/
def isNegative : Binary64 → Bool
  | nan => false
  | infinity s => s
  | negZero => true
  | num q => q < 0

def isZero : Binary64 → Bool
  | negZero => true
  | num q => q == 0
  | _ => false

/-- Zero with the given sign. -/
def zero (negative : Bool) : Binary64 := if negative then negZero else num 0

/-! ### Operations -/

def neg : Binary64 → Binary64
  | nan => nan
  | infinity s => infinity !s
  | negZero => num 0
  | num q => if q = 0 then negZero else num (-q)

def abs : Binary64 → Binary64
  | nan => nan
  | infinity _ => infinity false
  | negZero => num 0
  | num q => num q.abs

def add : Binary64 → Binary64 → Binary64
  | nan, _ | _, nan => nan
  | infinity s, infinity t => if s = t then infinity s else nan
  | infinity s, _ | _, infinity s => infinity s
  | negZero, negZero => negZero
  | x, y => ofRat (x.toRat + y.toRat)

def sub (x y : Binary64) : Binary64 := add x (neg y)

def mul (x y : Binary64) : Binary64 :=
  match x, y with
  | nan, _ | _, nan => nan
  | infinity s, y => if y.isZero then nan else infinity (s != y.isNegative)
  | x, infinity s => if x.isZero then nan else infinity (s != x.isNegative)
  | x, y =>
    if x.isZero || y.isZero then zero (x.isNegative != y.isNegative)
    else ofRat (x.toRat * y.toRat)

def div (x y : Binary64) : Binary64 :=
  match x, y with
  | nan, _ | _, nan => nan
  | infinity _, infinity _ => nan
  | infinity s, y => infinity (s != y.isNegative)
  | x, infinity s => zero (s != x.isNegative)
  | x, y =>
    let negative := x.isNegative != y.isNegative
    if y.isZero then (if x.isZero then nan else infinity negative)
    else if x.isZero then zero negative
    else ofRat (x.toRat / y.toRat)

/-! ### Order

What is not a number is neither below, nor above, nor equal to anything. -/

def lt : Binary64 → Binary64 → Bool
  | nan, _ | _, nan => false
  | infinity s, infinity t => s && !t
  | infinity s, _ => s
  | _, infinity t => !t
  | x, y => x.toRat < y.toRat

def le : Binary64 → Binary64 → Bool
  | nan, _ | _, nan => false
  | infinity s, infinity t => s || !t
  | infinity s, _ => s
  | _, infinity t => !t
  | x, y => x.toRat ≤ y.toRat

/-- Equality by value: the two zeros are equal. -/
def same : Binary64 → Binary64 → Bool
  | nan, _ | _, nan => false
  | infinity s, infinity t => s == t
  | infinity _, _ | _, infinity _ => false
  | x, y => x.toRat == y.toRat

/-- The number is whole. -/
def isInteger : Binary64 → Bool
  | nan | infinity _ => false
  | negZero => true
  | num q => q.den == 1

end Binary64

end ErCanvas
