import RoutineWatch.Toml.Basic

/-!
# TOML scalars

The scalars of TOML: blanks, comments, strings in their four forms, numbers, and dates.
Each reader takes the head of a text and gives its value with the rest, or nothing.
-/
namespace RoutineWatch.Toml

def isBlank (c : Char) : Bool := c = ' ' || c = '\t'

def skipBlanks (text : List Char) : List Char := text.dropWhile isBlank

/-- What may stand in a comment and, quotes and backslash apart, in a string. -/
def isPlain (c : Char) : Bool := c = '\t' || (32 ≤ c.toNat && c.toNat ≠ 127)

/-- The text after a line end, if one stands here. -/
def lineEnd? : List Char → Option (List Char)
  | '\n' :: rest => some rest
  | '\r' :: '\n' :: rest => some rest
  | _ => none

/-- The text after a comment, if one starts here. -/
def skipComment : List Char → List Char
  | '#' :: rest => rest.dropWhile isPlain
  | text => text

theorem skipComment_length (text : List Char) : (skipComment text).length ≤ text.length := by
  unfold skipComment
  split
  · exact Nat.le_succ_of_le (List.dropWhile_suffix _).length_le
  · exact Nat.le_refl _

/-- The text of the next line, once only blanks and a comment are left of this one. -/
def finishLine? (text : List Char) : Option (List Char) :=
  match skipComment (skipBlanks text) with
  | [] => some []
  | rest => lineEnd? rest

theorem lineEnd?_length {text rest : List Char} (h : lineEnd? text = some rest) :
    rest.length < text.length := by
  unfold lineEnd? at h
  split at h <;> simp at h <;> subst h <;> simp only [List.length_cons] <;> omega

def skipSpace (text : List Char) : List Char :=
  let here := skipComment (skipBlanks text)
  match _found : lineEnd? here with
  | some rest => skipSpace rest
  | none => here
termination_by text.length
decreasing_by
  have before : (skipComment (skipBlanks text)).length ≤ text.length := by
    have blanks : (skipBlanks text).length ≤ text.length := (List.dropWhile_suffix _).length_le
    refine Nat.le_trans ?_ blanks
    exact skipComment_length _
  have after := lineEnd?_length _found
  simp only [here] at after
  omega

/-! Strings -/

def hexDigit? (c : Char) : Option Nat :=
  if '0' ≤ c && c ≤ '9' then some (c.toNat - 48)
  else if 'a' ≤ c && c ≤ 'f' then some (c.toNat - 87)
  else if 'A' ≤ c && c ≤ 'F' then some (c.toNat - 55)
  else none

/-- The number that `count` hexadecimal digits write. -/
def hexNumber? (value : Nat) : Nat → List Char → Option (Nat × List Char)
  | 0, rest => some (value, rest)
  | count + 1, c :: rest =>
    match hexDigit? c with
    | some d => hexNumber? (value * 16 + d) count rest
    | none => none
  | _ + 1, [] => none

def scalar? (n : Nat) : Option Char :=
  if n < 0xD800 || (0xE000 ≤ n && n < 0x110000) then some (Char.ofNat n) else none

/-- The character that an escape stands for, after the backslash. -/
def readEscape : List Char → Option (Char × List Char)
  | [] => none
  | c :: rest =>
    if c = '"' || c = '\\' then some (c, rest)
    else if c = 'b' then some ('\x08', rest)
    else if c = 'f' then some ('\x0c', rest)
    else if c = 'n' then some ('\n', rest)
    else if c = 'r' then some ('\r', rest)
    else if c = 't' then some ('\t', rest)
    else if c = 'u' || c = 'U' then do
      let (n, rest) ← hexNumber? 0 (if c = 'u' then 4 else 8) rest
      some ((← scalar? n), rest)
    else none

/-- A string in double quotes, after the opening one. -/
def readBasic : Nat → List Char → Option (List Char × List Char)
  | 0, _ => none
  | _ + 1, [] => none
  | _ + 1, '"' :: rest => some ([], rest)
  | fuel + 1, '\\' :: rest => do
    let (c, rest) ← readEscape rest
    let (cs, rest) ← readBasic fuel rest
    some (c :: cs, rest)
  | fuel + 1, c :: rest =>
    if isPlain c then do
      let (cs, rest) ← readBasic fuel rest
      some (c :: cs, rest)
    else none

def readLiteral : List Char → Option (List Char × List Char)
  | [] => none
  | '\'' :: rest => some ([], rest)
  | c :: rest =>
    if isPlain c then do
      let (cs, rest) ← readLiteral rest
      some (c :: cs, rest)
    else none

def skipFolds (text : List Char) : List Char :=
  match text with
  | [] => []
  | '\n' :: rest => skipFolds rest
  | '\r' :: '\n' :: rest => skipFolds rest
  | c :: rest => if isBlank c then skipFolds rest else c :: rest

/-- How many quotes stand in a row here. -/
def quoteRun (quote : Char) (text : List Char) : Nat := (text.takeWhile (· = quote)).length

/-- The end of a string over several lines: up to two quotes may stand before the three
that close it. -/
def closeMultiline? (quote : Char) (text : List Char) : Option (List Char × List Char) :=
  let run := quoteRun quote text
  if run < 3 then none
  else
    let kept := min (run - 3) 2
    some (List.replicate kept quote, text.drop (kept + 3))

/-- A string in three double quotes, after the opening ones. A backslash at the end of
a line takes all blanks and line ends after it with it. -/
def readMultiline : Nat → List Char → Option (List Char × List Char)
  | 0, _ => none
  | _ + 1, [] => none
  | fuel + 1, '"' :: rest =>
    match closeMultiline? '"' ('"' :: rest) with
    | some close => some close
    | none => do
      let (cs, rest) ← readMultiline fuel rest
      some ('"' :: cs, rest)
  | fuel + 1, '\\' :: rest =>
    match lineEnd? (skipBlanks rest) with
    | some rest => readMultiline fuel (skipFolds rest)
    | none => do
      let (c, rest) ← readEscape rest
      let (cs, rest) ← readMultiline fuel rest
      some (c :: cs, rest)
  | fuel + 1, c :: rest =>
    match lineEnd? (c :: rest) with
    | some rest => do
      let (cs, rest) ← readMultiline fuel rest
      some ('\n' :: cs, rest)
    | none =>
      if isPlain c then do
        let (cs, rest) ← readMultiline fuel rest
        some (c :: cs, rest)
      else none

/-- A string in three single quotes, after the opening ones. -/
def readMultilineLiteral : Nat → List Char → Option (List Char × List Char)
  | 0, _ => none
  | _ + 1, [] => none
  | fuel + 1, '\'' :: rest =>
    match closeMultiline? '\'' ('\'' :: rest) with
    | some close => some close
    | none => do
      let (cs, rest) ← readMultilineLiteral fuel rest
      some ('\'' :: cs, rest)
  | fuel + 1, c :: rest =>
    match lineEnd? (c :: rest) with
    | some rest => do
      let (cs, rest) ← readMultilineLiteral fuel rest
      some ('\n' :: cs, rest)
    | none =>
      if isPlain c then do
        let (cs, rest) ← readMultilineLiteral fuel rest
        some (c :: cs, rest)
      else none

def dropFirstLineEnd (text : List Char) : List Char := (lineEnd? text).getD text

def readString (text : List Char) : Option (String × List Char) :=
  let fuel := text.length + 1
  let chars := match text with
    | '"' :: '"' :: '"' :: rest => readMultiline fuel (dropFirstLineEnd rest)
    | '"' :: rest => readBasic fuel rest
    | '\'' :: '\'' :: '\'' :: rest => readMultilineLiteral fuel (dropFirstLineEnd rest)
    | '\'' :: rest => readLiteral rest
    | _ => none
  chars.map fun (cs, rest) => (String.ofList cs, rest)

/-! Numbers -/

def isDigit (c : Char) : Bool := '0' ≤ c && c ≤ '9'

/-- Digits after the first one; a single underscore may stand between two. -/
def readMoreDigits (isDigit : Char → Bool) : List Char → Option (List Char × List Char)
  | '_' :: d :: rest =>
    if isDigit d then do
      let (ds, rest) ← readMoreDigits isDigit rest
      some (d :: ds, rest)
    else none
  | d :: rest =>
    if isDigit d then do
      let (ds, rest) ← readMoreDigits isDigit rest
      some (d :: ds, rest)
    else if d = '_' then none
    else some ([], d :: rest)
  | [] => some ([], [])

def readDigits (isDigit : Char → Bool) : List Char → Option (List Char × List Char)
  | d :: rest =>
    if isDigit d then do
      let (ds, rest) ← readMoreDigits isDigit rest
      some (d :: ds, rest)
    else none
  | [] => none

/-- The number that digits write. -/
def digitsValue (base : Nat) (ds : List Char) : Nat :=
  ds.foldl (fun n d => n * base + (hexDigit? d).getD 0) 0

/-- An integer of 64 bits with a sign. -/
def bounded? (value : Int) : Option Toml :=
  if -Int.pow 2 63 ≤ value && value < Int.pow 2 63 then some (.integer value) else none

def readRadix (base : Nat) (isDigit : Char → Bool) (text : List Char) :
    Option (Toml × List Char) := do
  let (ds, rest) ← readDigits isDigit text
  some ((← bounded? (digitsValue base ds)), rest)

def readSign : List Char → Bool × List Char
  | '+' :: rest => (false, rest)
  | '-' :: rest => (true, rest)
  | rest => (false, rest)

def readExponent : List Char → Option (Option Int × List Char)
  | c :: rest =>
    if c = 'e' || c = 'E' then do
      let (down, rest) := readSign rest
      let (ds, rest) ← readDigits isDigit rest
      let size : Int := digitsValue 10 ds
      some (some (if down then -size else size), rest)
    else some (none, c :: rest)
  | [] => some (none, [])

def readFraction : List Char → Option (Option (List Char) × List Char)
  | '.' :: rest => do
    let (ds, rest) ← readDigits isDigit rest
    some (some ds, rest)
  | rest => some (none, rest)

/-- The whole part of a number: zero, or digits of which the first is not zero. -/
def readWhole : List Char → Option (List Char × List Char)
  | '0' :: rest => some (['0'], rest)
  | rest => readDigits isDigit rest

/-- A decimal number. With a fraction or an exponent it is floating point; one too
large for that is refused. -/
def readDecimal (text : List Char) : Option (Toml × List Char) := do
  let (negative, text) := readSign text
  let (whole, rest) ← readWhole text
  let (fraction, rest) ← readFraction rest
  let (exponent, rest) ← readExponent rest
  match fraction, exponent with
  | none, none =>
    let value : Int := digitsValue 10 whole
    some ((← bounded? (if negative then -value else value)), rest)
  | _, _ =>
    let places := fraction.getD []
    let value := Binary64.ofDecimal negative (digitsValue 10 (whole ++ places))
      (exponent.getD 0 - places.length)
    if value = .infinite false then none else some (.real value, rest)

def readNumber (text : List Char) : Option (Toml × List Char) :=
  match text with
  | '0' :: 'x' :: rest => readRadix 16 (fun c => (hexDigit? c).isSome) rest
  | '0' :: 'o' :: rest => readRadix 8 (fun c => '0' ≤ c && c ≤ '7') rest
  | '0' :: 'b' :: rest => readRadix 2 (fun c => c = '0' || c = '1') rest
  | text =>
    let (negative, unsigned) := readSign text
    match unsigned with
    | 'i' :: 'n' :: 'f' :: rest => some (.real (.infinite negative), rest)
    | 'n' :: 'a' :: 'n' :: rest => some (.real .nan, rest)
    | _ => readDecimal text

/-! Dates -/

/-- A number of exactly `count` digits. -/
def readFixed : Nat → List Char → Option (Nat × List Char)
  | count, text =>
    let ds := text.take count
    if ds.length = count && ds.all isDigit then some (digitsValue 10 ds, text.drop count) else none

def expect (c : Char) : List Char → Option (List Char)
  | d :: rest => if d = c then some rest else none
  | [] => none

def daysIn (year month : Nat) : Nat :=
  if month = 2 then
    if year % 4 = 0 && (year % 100 ≠ 0 || year % 400 = 0) then 29 else 28
  else if month = 4 || month = 6 || month = 9 || month = 11 then 30
  else 31

def skipDate (text : List Char) : Option (List Char) := do
  let (year, rest) ← readFixed 4 text
  let rest ← expect '-' rest
  let (month, rest) ← readFixed 2 rest
  let rest ← expect '-' rest
  let (day, rest) ← readFixed 2 rest
  if 1 ≤ month && month ≤ 12 && 1 ≤ day && day ≤ daysIn year month then some rest else none

def skipHourMinute (text : List Char) : Option (List Char) := do
  let (hour, rest) ← readFixed 2 text
  let rest ← expect ':' rest
  let (minute, rest) ← readFixed 2 rest
  if hour ≤ 23 && minute ≤ 59 then some rest else none

def skipTime (text : List Char) : Option (List Char) := do
  let rest ← skipHourMinute text
  let rest ← expect ':' rest
  let (second, rest) ← readFixed 2 rest
  if second ≤ 60 then
    match rest with
    | '.' :: d :: more => some (if isDigit d then more.dropWhile isDigit else rest)
    | _ => some rest
  else none

/-- The text after an offset from universal time, if one stands here. -/
def skipOffset (text : List Char) : List Char :=
  match text with
  | c :: rest =>
    if c = 'Z' || c = 'z' then rest
    else if c = '+' || c = '-' then (skipHourMinute rest).getD text
    else text
  | [] => []

/-- The text after a date, a time, or both. -/
def skipDatetime (text : List Char) : Option (List Char) :=
  match skipDate text with
  | none => skipTime text
  | some rest =>
    match rest with
    | c :: more =>
      if c = 'T' || c = 't' || c = ' ' then
        match skipTime more with
        | some rest => some (skipOffset rest)
        | none => some rest
      else some rest
    | [] => some []

def readDatetime (text : List Char) : Option (Toml × List Char) :=
  (skipDatetime text).map fun rest =>
    (.datetime (String.ofList (text.take (text.length - rest.length))), rest)

/-- A scalar that starts with a sign or a digit or is a word. -/
def readPlainScalar (text : List Char) : Option (Toml × List Char) :=
  match text with
  | 't' :: 'r' :: 'u' :: 'e' :: rest => some (.boolean true, rest)
  | 'f' :: 'a' :: 'l' :: 's' :: 'e' :: rest => some (.boolean false, rest)
  | text =>
    match readDatetime text with
    | some found => some found
    | none => readNumber text

end RoutineWatch.Toml
