import RoutineWatch.Text.CharClass

/-!
# Texts in quotes

Texts in double quotes for messages: a quote, a backslash and the common controls
are escaped by a backslash, a character that shows nothing on its own by its code
point, and all else stands for itself.
-/
namespace RoutineWatch.Quoted

def hex (n : Nat) : List Char := Nat.toDigits 16 n

/-- One character inside the quotes. -/
def escape (c : Char) : List Char :=
  if c = '\x00' then ['\\', '0']
  else if c = '\t' then ['\\', 't']
  else if c = '\r' then ['\\', 'r']
  else if c = '\n' then ['\\', 'n']
  else if c = '\\' then ['\\', '\\']
  else if c = '"' then ['\\', '"']
  else if CharClass.isExtender c || !CharClass.isVisible c then
    '\\' :: 'u' :: '\x7b' :: hex c.toNat ++ ['\x7d']
  else [c]

def text (s : String) : String :=
  String.ofList ('"' :: s.toList.flatMap escape ++ ['"'])

/-- A list of texts, each in quotes, inside brackets. -/
def list (items : List String) : String :=
  "[" ++ String.intercalate ", " (items.map text) ++ "]"

end RoutineWatch.Quoted
