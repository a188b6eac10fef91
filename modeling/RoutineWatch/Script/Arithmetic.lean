import RoutineWatch.Script.Syntax

/-!
# Integer expressions of scripts

Integer expressions of scripts. A name stands for its variable's value, or for zero.
-/
namespace RoutineWatch.Script.Arithmetic

inductive Token where
  | number (value : Int)
  | operator (text : Text)
deriving DecidableEq, Repr

/-- The operators, longest first. -/
def operators : List Text :=
  ["<<", ">>", "<=", ">=", "==", "!=", "&&", "||", "+", "-", "*", "/", "%", "<", ">", "&", "|",
    "^", "!", "~", "(", ")"].map ofString

def digitsValue (digits : Text) : Int :=
  digits.foldl (fun n d => n * 10 + ((d.toNat : Int) - 48)) 0

/-- The integer that a text spells. -/
def integer? : Text → Option Int
  | '-' :: digits => if digits ≠ [] && digits.all Char.isDigit then some (-digitsValue digits) else none
  | '+' :: digits => if digits ≠ [] && digits.all Char.isDigit then some (digitsValue digits) else none
  | digits => if digits ≠ [] && digits.all Char.isDigit then some (digitsValue digits) else none

/-- The tokens of an expression. `fuel` bounds how many. -/
def tokens (fuel : Nat) (value : Text → Int) (text : Text) : Option (List Token) :=
  match fuel, text with
  | 0, _ => none
  | _ + 1, [] => some []
  | fuel + 1, c :: rest =>
    if c = ' ' || c = '\t' || c = '\n' then tokens fuel value rest
    else if c.isDigit then
      let digits := (c :: rest).takeWhile Char.isDigit
      (tokens fuel value ((c :: rest).dropWhile Char.isDigit)).map (.number (digitsValue digits) :: ·)
    else if c.isAlpha || c = '_' then
      let isName (c : Char) : Bool := c.isAlphanum || c = '_'
      let name := (c :: rest).takeWhile isName
      (tokens fuel value ((c :: rest).dropWhile isName)).map (.number (value name) :: ·)
    else
      match operators.find? fun op => op.isPrefixOf (c :: rest) with
      | none => none
      | some op => (tokens fuel value ((c :: rest).drop op.length)).map (.operator op :: ·)

def truth (b : Bool) : Int := if b then 1 else 0

/-- How tightly an operator with two operands binds, and what it does. -/
def binary? (op : Text) : Option (Nat × (Int → Int → Option Int)) :=
  match String.ofList op with
  | "||" => some (1, fun a b => some (truth (a ≠ 0 || b ≠ 0)))
  | "&&" => some (2, fun a b => some (truth (a ≠ 0 && b ≠ 0)))
  | "|" => some (3, fun a b => if 0 ≤ a && 0 ≤ b then some (a.toNat ||| b.toNat) else none)
  | "^" => some (4, fun a b => if 0 ≤ a && 0 ≤ b then some (a.toNat ^^^ b.toNat) else none)
  | "&" => some (5, fun a b => if 0 ≤ a && 0 ≤ b then some (a.toNat &&& b.toNat) else none)
  | "==" => some (6, fun a b => some (truth (a = b)))
  | "!=" => some (6, fun a b => some (truth (a ≠ b)))
  | "<" => some (7, fun a b => some (truth (a < b)))
  | "<=" => some (7, fun a b => some (truth (a ≤ b)))
  | ">" => some (7, fun a b => some (truth (b < a)))
  | ">=" => some (7, fun a b => some (truth (b ≤ a)))
  | "<<" => some (8, fun a b => if 0 ≤ b && b < 64 then some (a * Int.pow 2 b.toNat) else none)
  | ">>" => some (8, fun a b => if 0 ≤ b && b < 64 then some (a / Int.pow 2 b.toNat) else none)
  | "+" => some (9, fun a b => some (a + b))
  | "-" => some (9, fun a b => some (a - b))
  | "*" => some (10, fun a b => some (a * b))
  | "/" => some (10, fun a b => if b = 0 then none else some (a.tdiv b))
  | "%" => some (10, fun a b => if b = 0 then none else some (a.tmod b))
  | _ => none

mutual

/-- The value of an operand. -/
def operand (fuel : Nat) (ts : List Token) : Option (Int × List Token) :=
  match fuel, ts with
  | 0, _ => none
  | _ + 1, .number n :: ts => some (n, ts)
  | fuel + 1, .operator op :: ts =>
    match op with
    | ['('] => do
      let (n, ts) ← expression fuel 0 ts
      match ts with
      | .operator [')'] :: ts => some (n, ts)
      | _ => none
    | ['-'] => (operand fuel ts).map fun r => (-r.1, r.2)
    | ['+'] => operand fuel ts
    | ['!'] => (operand fuel ts).map fun r => (truth (r.1 = 0), r.2)
    | ['~'] => (operand fuel ts).map fun r => (-r.1 - 1, r.2)
    | _ => none
  | _ + 1, [] => none

/-- The value of an expression whose operators bind tighter than `level`. -/
def expression (fuel level : Nat) (ts : List Token) : Option (Int × List Token) :=
  match fuel with
  | 0 => none
  | fuel + 1 => do
    let (n, ts) ← operand fuel ts
    joined fuel level n ts

/-- The value of operators that follow a first operand. -/
def joined (fuel level : Nat) (first : Int) (ts : List Token) : Option (Int × List Token) :=
  match fuel, ts with
  | fuel + 1, .operator op :: rest =>
    match binary? op with
    | none => some (first, ts)
    | some (binding, apply) =>
      if binding ≤ level then some (first, ts)
      else do
        let (second, rest) ← expression fuel binding rest
        let n ← apply first second
        joined fuel level n rest
  | _, ts => some (first, ts)

end

/-- The value of an expression; an empty one is zero. -/
def evaluate (value : Text → Int) (text : Text) : Option Int := do
  let ts ← tokens (text.length + 1) value text
  if ts.isEmpty then some 0
  else
    let (n, rest) ← expression (3 * ts.length + 3) 0 ts
    if rest.isEmpty then some n else none

end RoutineWatch.Script.Arithmetic
