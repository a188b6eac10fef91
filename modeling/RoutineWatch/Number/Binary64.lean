/-!
# Binary floating point numbers

Numbers of the binary interchange format with 53 significant bits, held as an
integer times a power of two. Rounding a quotient of natural numbers to the nearest
of them, ties to even, is exact integer arithmetic, and so are product, quotient and
the reading of a decimal.

- `Binary64.ofRatio`: a quotient of natural numbers, rounded.
- `Binary64.ofDecimal`: a decimal, rounded once.

Numbers too small for the full precision, infinities and what is no number are included.
-/
namespace RoutineWatch

/-- A binary floating point number. A finite one is `mantissa * 2 ^ exponent`. -/
inductive Binary64 where
  | finite (negative : Bool) (mantissa : Nat) (exponent : Int)
  | infinite (negative : Bool)
  | nan
deriving DecidableEq, Repr

namespace Binary64

/-- The least exponent; mantissas below `2 ^ 52` occur at it alone. -/
def minExponent : Int := -1074

/-- The greatest exponent of a finite number. -/
def maxExponent : Int := 971

def zero (negative : Bool) : Binary64 := .finite negative 0 minExponent

/-- The quotient rounded to the nearest integer, a half to the even neighbour. -/
def divideToEven (num den : Nat) : Nat :=
  let quotient := num / den
  let twice := 2 * (num % den)
  if twice > den || (twice = den && quotient % 2 = 1) then quotient + 1 else quotient

/-- `num / den` divided by `2 ^ exponent`, as numerator and denominator. -/
def unscale (num den : Nat) (exponent : Int) : Nat × Nat :=
  match exponent with
  | .ofNat e => (num, den * Nat.pow 2 e)
  | .negSucc e => (num * Nat.pow 2 (e + 1), den)

/-- The exponent at which `num / den` has a mantissa of 53 bits, or the least one. -/
def exponentOf (num den : Nat) : Int :=
  let guess : Int := (Nat.log2 num : Int) - (Nat.log2 den : Int) - 52
  let scaled := unscale num den guess
  max (if scaled.1 / scaled.2 < Nat.pow 2 52 then guess - 1 else guess) minExponent

/-- `num / den` rounded to the nearest number, ties to even. -/
def ofRatio (negative : Bool) (num den : Nat) : Binary64 :=
  if num = 0 then zero negative
  else
    let exponent := exponentOf num den
    let scaled := unscale num den exponent
    let mantissa := divideToEven scaled.1 scaled.2
    let carried := if mantissa = Nat.pow 2 53 then (Nat.pow 2 52, exponent + 1) else (mantissa, exponent)
    if carried.2 > maxExponent then .infinite negative
    else .finite negative carried.1 carried.2

/-- `num / den * 2 ^ exponent`, rounded. -/
def ofScaledRatio (negative : Bool) (num den : Nat) (exponent : Int) : Binary64 :=
  let scaled := unscale num den (-exponent)
  ofRatio negative scaled.1 scaled.2

def ofNat (n : Nat) : Binary64 := ofRatio false n 1

/-- A decimal `digits * 10 ^ exponent`, rounded once. An exponent far outside the range
of the format is decided without computing the power. -/
def ofDecimal (negative : Bool) (digits : Nat) (exponent : Int) : Binary64 :=
  if digits = 0 || exponent < -400 - (Nat.log2 digits : Int) then zero negative
  else if exponent > 400 then .infinite negative
  else
    match exponent with
    | .ofNat e => ofRatio negative (digits * Nat.pow 10 e) 1
    | .negSucc e => ofRatio negative digits (Nat.pow 10 (e + 1))

def negate : Binary64 → Binary64
  | .finite negative mantissa exponent => .finite (!negative) mantissa exponent
  | .infinite negative => .infinite (!negative)
  | .nan => .nan

def mul : Binary64 → Binary64 → Binary64
  | .finite n m e, .finite n' m' e' => ofScaledRatio (n != n') (m * m') 1 (e + e')
  | _, _ => .nan

/-- The quotient of two finite numbers, rounded; the divisor is not zero. -/
def div : Binary64 → Binary64 → Binary64
  | .finite n m e, .finite n' m' e' =>
    if m' = 0 then .nan else ofScaledRatio (n != n') m m' (e - e')
  | _, _ => .nan

def isInfinite : Binary64 → Bool
  | .infinite _ => true
  | _ => false

def isZero : Binary64 → Bool
  | .finite _ 0 _ => true
  | _ => false

end Binary64

end RoutineWatch
