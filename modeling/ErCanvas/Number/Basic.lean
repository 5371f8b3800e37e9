import ErCanvas.Fault
import ErCanvas.Number.Decimal

/-! # Numbers

A number of a document is a whole number of any size or a floating-point number. Sums, differences
and products of whole numbers are whole; with a floating-point operand, and in every quotient, the
result is a floating-point number. Comparisons are by exact value. Main statements: what the
operations do on whole numbers. -/

namespace ErCanvas

/-- A number of a document. -/
inductive Number where
  | int (n : Int)
  | float (x : Binary64)
deriving DecidableEq, Inhabited

namespace Number

/-- A rational as a floating-point number, if it is not too large. -/
def ofRat? (q : Rat) : Outcome Binary64 :=
  match Binary64.ofRat q with
  | .infinity _ => .error .overflow
  | x => .ok x

/-- The nearest floating-point number. -/
def toBinary64 : Number → Outcome Binary64
  | int n => ofRat? n
  | float x => .ok x

/-- Applies `whole` to two whole numbers and `floating` to all others. -/
def combine (whole : Int → Int → Int) (floating : Binary64 → Binary64 → Binary64) :
    Number → Number → Outcome Number
  | int a, int b => .ok (int (whole a b))
  | a, b => do
    let x ← a.toBinary64
    let y ← b.toBinary64
    return float (floating x y)

def add : Number → Number → Outcome Number := combine (· + ·) Binary64.add
def sub : Number → Number → Outcome Number := combine (· - ·) Binary64.sub
def mul : Number → Number → Outcome Number := combine (· * ·) Binary64.mul

/-- The quotient, a floating-point number. -/
def div : Number → Number → Outcome Number
  | int a, int b =>
    if b = 0 then .error .divisionByZero
    else (ofRat? ((a : Rat) / b)).map float
  | a, b => do
    let x ← a.toBinary64
    let y ← b.toBinary64
    if y.isZero then .error .divisionByZero
    else return float (x.div y)

/-- The magnitude. -/
def abs : Number → Number
  | int n => int n.natAbs
  | float x => float x.abs

/-- The greatest whole number that is not above. -/
def floor : Number → Outcome Int
  | int n => .ok n
  | float .nan => .error .floorOfNaN
  | float (.infinity _) => .error .overflow
  | float x => .ok x.toRat.floor

/-! ### Order -/

/-- The exact value, for comparisons. -/
def exact : Number → Binary64
  | int n => .num n
  | float x => x

def lt : Number → Number → Bool
  | int a, int b => a < b
  | a, b => a.exact.lt b.exact

def le : Number → Number → Bool
  | int a, int b => a ≤ b
  | a, b => a.exact.le b.exact

/-- Equality by value. -/
def same : Number → Number → Bool
  | int a, int b => a == b
  | a, b => a.exact.same b.exact

/-- Numbers of the same value have the same key; what is not a number has one too, and is not the
same as itself. -/
def key : Number → Binary64
  | int n => .num n
  | float .negZero => .num 0
  | float x => x

def isZero : Number → Bool
  | int n => n == 0
  | float x => x.isZero

/-- The sign: one, zero or minus one; zero also for what is not a number. -/
def sign (x : Number) : Int :=
  if lt (int 0) x then 1 else if lt x (int 0) then -1 else 0

/-- The text of a number. -/
def text : Number → String
  | int n => toString n
  | float x => x.text

/-! ### Whole numbers -/

@[simp] theorem add_int (a b : Int) : add (int a) (int b) = .ok (int (a + b)) := rfl
@[simp] theorem sub_int (a b : Int) : sub (int a) (int b) = .ok (int (a - b)) := rfl
@[simp] theorem mul_int (a b : Int) : mul (int a) (int b) = .ok (int (a * b)) := rfl
@[simp] theorem lt_int (a b : Int) : lt (int a) (int b) = decide (a < b) := rfl
@[simp] theorem le_int (a b : Int) : le (int a) (int b) = decide (a ≤ b) := rfl
@[simp] theorem same_int (a b : Int) : same (int a) (int b) = (a == b) := rfl
@[simp] theorem abs_int (a : Int) : abs (int a) = int a.natAbs := rfl
@[simp] theorem floor_int (a : Int) : floor (int a) = .ok a := rfl

end Number

end ErCanvas
