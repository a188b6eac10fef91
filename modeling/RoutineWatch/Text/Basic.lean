/-!
# Texts as rows of characters

Where one text occurs in another, blanks and what is left without them at both ends, and
lines that keep their ends: cut either at line feeds alone or at any of line feed, carriage
return, and the two together.
-/
namespace RoutineWatch

/-- Whether a text occurs in another one. -/
def occursIn (pattern : List Char) : List Char → Bool
  | [] => pattern.isEmpty
  | c :: cs => pattern.isPrefixOf (c :: cs) || occursIn pattern cs

theorem occursIn_iff (pattern text : List Char) :
    occursIn pattern text = true ↔ pattern <:+: text := by
  induction text with
  | nil => simp [occursIn]
  | cons c cs ih => simp [occursIn, ih, List.infix_cons_iff]

namespace Blank

/-- The code points of blanks, which have the property White_Space, as inclusive ranges. -/
def ranges : List (Nat × Nat) := [
  (0x09, 0x0D), (0x20, 0x20), (0x85, 0x85), (0xA0, 0xA0), (0x1680, 0x1680), (0x2000, 0x200A),
  (0x2028, 0x2029), (0x202F, 0x202F), (0x205F, 0x205F), (0x3000, 0x3000)]

def holds (c : Char) : Bool := ranges.any fun r => r.1 ≤ c.toNat && c.toNat ≤ r.2

/-- Drops the blanks at both ends of a row of characters. -/
def trimChars (cs : List Char) : List Char :=
  ((cs.dropWhile holds).reverse.dropWhile holds).reverse

def trim (text : String) : String := String.ofList (trimChars text.toList)

end Blank

namespace Line

/-- Puts a character in front of the first line. -/
def onto (c : Char) : List (List Char) → List (List Char)
  | [] => [[c]]
  | line :: lines => (c :: line) :: lines

/-- Lines that end after a line feed. -/
def atLineFeed : List Char → List (List Char)
  | [] => []
  | c :: cs => if c = '\n' then [c] :: atLineFeed cs else onto c (atLineFeed cs)

/-- Lines that end after a line feed, after a carriage return, or after a carriage
return with a line feed. -/
def atAnyEnd : List Char → List (List Char)
  | [] => []
  | '\r' :: '\n' :: cs => ['\r', '\n'] :: atAnyEnd cs
  | c :: cs => if c = '\n' || c = '\r' then [c] :: atAnyEnd cs else onto c (atAnyEnd cs)

theorem flatten_onto (c : Char) (lines : List (List Char)) :
    (onto c lines).flatten = c :: lines.flatten := by
  cases lines <;> simp [onto]

/-- Nothing is lost by cutting at line feeds. -/
theorem flatten_atLineFeed (cs : List Char) : (atLineFeed cs).flatten = cs := by
  induction cs with
  | nil => rfl
  | cons c cs ih =>
    simp only [atLineFeed]
    split <;> simp [flatten_onto, ih]

def isEnded (line : List Char) : Bool :=
  match line.getLast? with
  | some c => c = '\n' || c = '\r'
  | none => false

end Line

end RoutineWatch
