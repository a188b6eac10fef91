import RoutineWatch.Json.Basic

/-!
# Writing JSON

Writing JSON, on one line or indented. A string is escaped where the format asks for
it and nowhere else.

- `Json.compact`: on one line.
- `Json.pretty`: indented.
-/
namespace RoutineWatch.Json

/-- A hexadecimal digit in lower case. -/
def hexDigit (n : Nat) : Char := if n < 10 then Char.ofNat (48 + n) else Char.ofNat (87 + n)

/-- One character of a string. -/
def escape (c : Char) : List Char :=
  if c = '"' then ['\\', '"']
  else if c = '\\' then ['\\', '\\']
  else if c = '\x08' then ['\\', 'b']
  else if c = '\x0c' then ['\\', 'f']
  else if c = '\n' then ['\\', 'n']
  else if c = '\r' then ['\\', 'r']
  else if c = '\t' then ['\\', 't']
  else if c.toNat < 32 then ['\\', 'u', '0', '0', hexDigit (c.toNat / 16), hexDigit (c.toNat % 16)]
  else [c]

def quote (s : String) : List Char := '"' :: s.toList.flatMap escape ++ ['"']

mutual

/-- A value on one line, without blanks. -/
def compactChars : Json → List Char
  | .null => ['n', 'u', 'l', 'l']
  | .bool true => ['t', 'r', 'u', 'e']
  | .bool false => ['f', 'a', 'l', 's', 'e']
  | .number value => value.render.toList
  | .string value => quote value
  | .array items => '[' :: compactItems items ++ [']']
  | .object members => '\x7b' :: compactMembers members ++ ['\x7d']

def compactItems : List Json → List Char
  | [] => []
  | [item] => compactChars item
  | item :: items => compactChars item ++ ',' :: compactItems items

def compactMembers : List (String × Json) → List Char
  | [] => []
  | [(k, v)] => quote k ++ ':' :: compactChars v
  | (k, v) :: members => quote k ++ ':' :: compactChars v ++ ',' :: compactMembers members

end

def compact (value : Json) : String := String.ofList (compactChars value)

/-- A line break and the blanks of an indentation. -/
def newline (indent : Nat) : List Char := '\n' :: List.replicate indent ' '

mutual

/-- A value over several lines, each level indented by `width` more blanks than the one
around it. An empty array or object stays on its line. -/
def prettyChars (width indent : Nat) : Json → List Char
  | .array [] => ['[', ']']
  | .array items =>
    '[' :: prettyItems width (indent + width) items ++ newline indent ++ [']']
  | .object [] => ['\x7b', '\x7d']
  | .object members =>
    '\x7b' :: prettyMembers width (indent + width) members ++ newline indent ++ ['\x7d']
  | .null => compactChars .null
  | .bool value => compactChars (.bool value)
  | .number value => compactChars (.number value)
  | .string value => compactChars (.string value)

def prettyItems (width indent : Nat) : List Json → List Char
  | [] => []
  | [item] => newline indent ++ prettyChars width indent item
  | item :: items =>
    newline indent ++ prettyChars width indent item ++ ',' :: prettyItems width indent items

def prettyMembers (width indent : Nat) : List (String × Json) → List Char
  | [] => []
  | [(k, v)] => newline indent ++ quote k ++ ':' :: ' ' :: prettyChars width indent v
  | (k, v) :: members =>
    newline indent ++ quote k ++ ':' :: ' ' :: prettyChars width indent v ++
      ',' :: prettyMembers width indent members

end

/-- A value over several lines, indented by `width` blanks a level. -/
def pretty (width : Nat) (value : Json) : String := String.ofList (prettyChars width 0 value)

end RoutineWatch.Json
