import RoutineWatch.Number.Binary64

/-!
# The shortest decimal of a number

The shortest decimal that reads back as a given number: of all decimals that round
to it, one with the fewest digits, and of those the nearest. The numbers that round
to `m * 2 ^ e` form an interval whose ends belong to it when `m` is even; the search
goes from coarse to fine powers of ten and stops at the first with a multiple inside.

- `Binary64.shortest`: the search.
- `DecimalStyle.json`, `DecimalStyle.plain`: the layouts of JSON texts and of messages.
-/
namespace RoutineWatch

/-- A decimal `digits * 10 ^ exponent`. -/
structure Decimal where
  digits : Nat
  exponent : Int
deriving DecidableEq, Repr

namespace Binary64

/-- The interval of what rounds to a number, in quarters of its unit `2 ^ exponent`. -/
structure Interval where
  lo : Nat
  center : Nat
  hi : Nat
  /-- Whether the ends round to the number too. -/
  closed : Bool
  exponent : Int
deriving Repr

/-- The interval around `mantissa * 2 ^ exponent`. Below a power of two the numbers
stand twice as dense. -/
def interval (mantissa : Nat) (exponent : Int) : Interval :=
  let down := if mantissa = Nat.pow 2 52 && exponent > minExponent then 1 else 2
  ⟨4 * mantissa - down, 4 * mantissa, 4 * mantissa + 2, mantissa % 2 = 0, exponent⟩

/-- `2 ^ e` as numerator and denominator. -/
def ratioOfPower (base : Nat) (e : Int) : Nat × Nat :=
  match e with
  | .ofNat k => (base.pow k, 1)
  | .negSucc k => (1, base.pow (k + 1))

/-- Whether `candidate * 10 ^ power` lies in the interval. -/
def Interval.holds (i : Interval) (candidate : Nat) (power : Int) : Bool :=
  let unit := ratioOfPower 2 (i.exponent - 2)
  let grid := ratioOfPower 10 power
  let point := candidate * grid.1 * unit.2
  let lo := i.lo * unit.1 * grid.2
  let hi := i.hi * unit.1 * grid.2
  if i.closed then lo ≤ point && point ≤ hi else lo < point && point < hi

/-- The number divided by `10 ^ power`: quotient, and twice the remainder against the
divisor. -/
def Interval.onGrid (i : Interval) (power : Int) : Nat × Ordering :=
  let unit := ratioOfPower 2 (i.exponent - 2)
  let grid := ratioOfPower 10 power
  let num := i.center * unit.1 * grid.2
  let den := unit.2 * grid.1
  (num / den, compare (2 * (num % den)) den)

/-- The multiple of `10 ^ power` to take, if one of the two next to the number lies in
the interval: the nearer one, of two equally near ones the even one. -/
def Interval.pick (i : Interval) (power : Int) : Option Nat :=
  let (below, half) := i.onGrid power
  let above := below + 1
  match below != 0 && i.holds below power, i.holds above power with
  | true, true =>
    some (match half with
      | .lt => below
      | .gt => above
      | .eq => if below % 2 = 0 then below else above)
  | true, false => some below
  | false, true => some above
  | false, false => none

/-- Searches `steps` powers of ten downwards from `power`. -/
def Interval.search (i : Interval) (power : Int) : Nat → Decimal
  | 0 => ⟨(i.onGrid power).1, power⟩
  | steps + 1 =>
    match i.pick power with
    | some digits => ⟨digits, power⟩
    | none => i.search (power - 1) steps

/-- The shortest decimal of a positive number. The search starts above the number and
seventeen digits always suffice. -/
def shortest (mantissa : Nat) (exponent : Int) : Decimal :=
  let top : Int := (((Nat.log2 mantissa : Int) + exponent + 1) * 30103) / 100000 + 1
  (interval mantissa exponent).search top 24

end Binary64

/-- How a decimal is laid out. -/
structure DecimalStyle where
  /-- Powers of the leading digit that are written without an exponent. -/
  positional : Int → Bool

namespace DecimalStyle

def zeros (n : Nat) : List Char := List.replicate n '0'

/-- Without an exponent; an integer gets `.0`. -/
def positionalText (digits : List Char) (exponent : Int) : List Char :=
  match exponent with
  | .ofNat e => digits ++ zeros e ++ ['.', '0']
  | .negSucc e =>
    let places := e + 1
    if places < digits.length then
      digits.take (digits.length - places) ++ '.' :: digits.drop (digits.length - places)
    else '0' :: '.' :: zeros (places - digits.length) ++ digits

/-- With an exponent, whose sign is always written. -/
def scientificText (digits : List Char) (leading : Int) : List Char :=
  let exponentText : List Char :=
    if leading < 0 then '-' :: (toString leading.natAbs).toList
    else '+' :: (toString leading.natAbs).toList
  match digits with
  | [] => []
  | [d] => d :: 'e' :: exponentText
  | d :: ds => d :: '.' :: ds ++ 'e' :: exponentText

/-- A decimal in the style. -/
def decimal (style : DecimalStyle) (d : Decimal) : List Char :=
  let digits := (toString d.digits).toList
  let leading := (digits.length : Int) + d.exponent - 1
  if style.positional leading then positionalText digits d.exponent
  else scientificText digits leading

/-- A number in the style. -/
def render (style : DecimalStyle) : Binary64 → String
  | .nan => "NaN"
  | .infinite negative => if negative then "-inf" else "inf"
  | .finite negative mantissa exponent =>
    let body :=
      if mantissa = 0 then ['0', '.', '0']
      else style.decimal (Binary64.shortest mantissa exponent)
    String.ofList (if negative then '-' :: body else body)

/-- Numbers as a JSON text writes them: an exponent outside `10 ^ -5 .. 10 ^ 15`. -/
def json : DecimalStyle := ⟨fun leading => -5 ≤ leading && leading < 16⟩

/-- Numbers as a plain message writes them: never an exponent. -/
def plain : DecimalStyle := ⟨fun _ => true⟩

end DecimalStyle

end RoutineWatch
