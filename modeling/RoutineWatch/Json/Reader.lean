import RoutineWatch.Json.Basic

/-!
# Reading JSON

Reading JSON. A text is first read into a `Document`, which keeps every member in the
order of the text and records where reading stopped: a reader of a known shape that
walks the document meets its mismatches and the place of a syntax fault in the order
of the text. `Json.parse` is the reader that accepts any value.

- `Json.readFirst`: the first value of a text, and what follows it.
- `Json.parse`: the one value of a text.
- `Json.parseMembers`: the members of a text that is one object.

Numbers of more digits than fit are rounded the way a reader does that multiplies by powers of
ten (`Json.scale`), which need not be the nearest number.
-/
namespace RoutineWatch.Json

/-- A text as it was read. What is malformed only in what it stands for (half a
surrogate pair, a number out of range) is `none`. -/
inductive Document where
  | null
  | bool (value : Bool)
  | number (value : Option JsonNumber)
  | string (value : Option String)
  /-- `closed` tells whether the bracket that ends it was reached. -/
  | array (items : List Document) (closed : Bool)
  | object (members : List (Option String × Document)) (closed : Bool)
  /-- No value starts here. -/
  | fault
deriving Repr

/-- Blanks between tokens. -/
def isBlank (c : Char) : Bool := c = ' ' || c = '\n' || c = '\t' || c = '\r'

/-- The text after its leading blanks. -/
def skipBlanks : List Char → List Char
  | [] => []
  | c :: cs => if isBlank c then skipBlanks cs else c :: cs

/-! Strings -/

def hexDigit? (c : Char) : Option Nat :=
  if '0' ≤ c && c ≤ '9' then some (c.toNat - 48)
  else if 'a' ≤ c && c ≤ 'f' then some (c.toNat - 87)
  else if 'A' ≤ c && c ≤ 'F' then some (c.toNat - 55)
  else none

/-- The four hexadecimal digits of an escape. -/
def hex4? (a b c d : Char) : Option Nat := do
  let a ← hexDigit? a
  let b ← hexDigit? b
  let c ← hexDigit? c
  let d ← hexDigit? d
  some (((a * 16 + b) * 16 + c) * 16 + d)

/-- One piece of a string: a character, or a UTF-16 unit given by its number. -/
inductive Unit16 where
  | char (value : Char)
  | unit (value : Nat)
deriving Repr

/-- The character that a one-letter escape stands for. -/
def shortEscape? (c : Char) : Option Char :=
  if c = '"' || c = '\\' || c = '/' then some c
  else if c = 'b' then some '\x08'
  else if c = 'f' then some '\x0c'
  else if c = 'n' then some '\n'
  else if c = 'r' then some '\r'
  else if c = 't' then some '\t'
  else none

/-- The pieces of a string after its opening quote, and the text after the closing
one; `none` for a control character, an unknown escape or a missing quote. -/
def readPieces : List Char → Option (List Unit16 × List Char)
  | [] => none
  | '"' :: rest => some ([], rest)
  | '\\' :: 'u' :: a :: b :: c :: d :: rest => do
    let n ← hex4? a b c d
    let (pieces, rest) ← readPieces rest
    some (.unit n :: pieces, rest)
  | '\\' :: e :: rest => do
    let value ← shortEscape? e
    let (pieces, rest) ← readPieces rest
    some (.char value :: pieces, rest)
  | c :: rest =>
    if c.toNat < 32 then none
    else do
      let (pieces, rest) ← readPieces rest
      some (.char c :: pieces, rest)

/-- The text of the pieces. Units pair up to a character; one without its partner
stands for nothing. -/
def joinPieces : List Unit16 → Option (List Char)
  | [] => some []
  | .char c :: rest => (joinPieces rest).map (c :: ·)
  | .unit high :: .unit low :: rest =>
    if 0xD800 ≤ high && high < 0xDC00 then
      if 0xDC00 ≤ low && low < 0xE000 then
        (joinPieces rest).map
          (Char.ofNat (0x10000 + (high - 0xD800) * 0x400 + (low - 0xDC00)) :: ·)
      else none
    else if 0xDC00 ≤ high && high < 0xE000 then none
    else (joinPieces (.unit low :: rest)).map (Char.ofNat high :: ·)
  | .unit n :: rest =>
    if 0xD800 ≤ n && n < 0xE000 then none
    else (joinPieces rest).map (Char.ofNat n :: ·)

/-! Numbers -/

/-- The greatest significand that is kept exactly. -/
def maxSignificand : Nat := Nat.pow 2 64 - 1

/-- Appends decimal digits to a significand while it stays in range. Also gives how
many digits were appended and which were not. -/
def takeDigits (significand : Nat) : List Char → Nat × Nat × List Char
  | [] => (significand, 0, [])
  | d :: ds =>
    let next := significand * 10 + (d.toNat - 48)
    if next > maxSignificand then (significand, 0, d :: ds)
    else
      let (s, n, rest) := takeDigits next ds
      (s, n + 1, rest)

/-- `significand * 10 ^ exponent` with one rounding for the significand and one for
each multiplication or division by a power of ten up to `10 ^ 308`; `none` when out of
range. -/
def scale (significand : Nat) (exponent : Int) : Option Binary64 :=
  let power (k : Nat) : Binary64 := Binary64.ofDecimal false 1 k
  let start := Binary64.ofNat significand
  match exponent with
  | .ofNat e =>
    if e ≤ 308 then
      let product := start.mul (power e)
      if product.isInfinite then none else some product
    else if start.isZero then some start
    else none
  | .negSucc e =>
    let places := e + 1
    if places ≤ 308 then some (start.div (power places))
    else
      let once := start.div (power 308)
      if places ≤ 616 then some (once.div (power (places - 308)))
      else some ((once.div (power 308)).div (power 308))

/-- A number's parts as written: sign, digits before and after the point, exponent. -/
structure Numeral where
  negative : Bool
  whole : List Char
  fraction : Option (List Char)
  exponent : Option (Bool × List Char)
deriving Repr

/-- The value of a row of digits. -/
def digitsValue (ds : List Char) : Nat := ds.foldl (fun n d => n * 10 + (d.toNat - 48)) 0

/-- A floating point value of the given sign. -/
def signed (negative : Bool) (value : Binary64) : JsonNumber :=
  .real (if negative then value.negate else value)

/-- What a numeral stands for. An integer that fits 64 bits is exact; a negative zero
and everything else is floating point. -/
def Numeral.value? (n : Numeral) : Option JsonNumber :=
  let (significand, _, dropped) := takeDigits 0 n.whole
  match n.fraction, n.exponent, dropped with
  | none, none, [] =>
    if !n.negative then some (.integer significand)
    else if 0 < significand && significand ≤ Nat.pow 2 63 then some (.integer (-(significand : Int)))
    else (scale significand 0).map (signed true)
  | fraction, exponent, dropped =>
    let (significand, places, _) := takeDigits significand (fraction.getD [])
    let point : Int := (dropped.length : Int) - (places : Int)
    match exponent with
    | none => (scale significand point).map (signed n.negative)
    | some (down, digits) =>
      let size := digitsValue digits
      if size > Nat.pow 2 31 - 1 then
        if significand ≠ 0 && !down then none else some (signed n.negative (Binary64.zero false))
      else
        (scale significand (if down then point - size else point + size)).map (signed n.negative)

def isDigit (c : Char) : Bool := '0' ≤ c && c ≤ '9'

/-- The exponent of a number, after the digits: nothing, or `e`, a sign and digits. -/
def readExponent : List Char → Option (Option (Bool × List Char) × List Char)
  | c :: rest =>
    if c = 'e' || c = 'E' then
      let (down, rest) := match rest with
        | '+' :: r => (false, r)
        | '-' :: r => (true, r)
        | r => (false, r)
      let digits := rest.takeWhile isDigit
      if digits.isEmpty then none else some (some (down, digits), rest.dropWhile isDigit)
    else some (none, c :: rest)
  | [] => some (none, [])

/-- The fraction and the exponent of a number. -/
def readFraction (negative : Bool) (whole : List Char) (rest : List Char) :
    Option (Numeral × List Char) :=
  match rest with
  | '.' :: r => do
    let digits := r.takeWhile isDigit
    if digits.isEmpty then none
    else
      let (exponent, rest) ← readExponent (r.dropWhile isDigit)
      some (⟨negative, whole, some digits, exponent⟩, rest)
  | r => do
    let (exponent, rest) ← readExponent r
    some (⟨negative, whole, none, exponent⟩, rest)

/-- A number after its sign: no leading zero, digits on both sides of a point. -/
def readNumeral (negative : Bool) : List Char → Option (Numeral × List Char)
  | '0' :: rest =>
    match rest with
    | d :: _ => if isDigit d then none else readFraction negative ['0'] rest
    | [] => readFraction negative ['0'] []
  | d :: rest =>
    if isDigit d then
      readFraction negative (d :: rest.takeWhile isDigit) (rest.dropWhile isDigit)
    else none
  | [] => none

/-! Documents -/

def numberDocument : Option (Numeral × List Char) → Document × Option (List Char)
  | some (numeral, rest) => (.number numeral.value?, some rest)
  | none => (.fault, none)

mutual

/-- Reads one value from the head of a text. The rest of the text is `none` once a
fault was met. `fuel` bounds the nesting together with the number of items. -/
def readValue (fuel : Nat) (text : List Char) : Document × Option (List Char) :=
  match fuel with
  | 0 => (.fault, none)
  | fuel + 1 =>
    match text with
    | 'n' :: 'u' :: 'l' :: 'l' :: rest => (.null, some rest)
    | 't' :: 'r' :: 'u' :: 'e' :: rest => (.bool true, some rest)
    | 'f' :: 'a' :: 'l' :: 's' :: 'e' :: rest => (.bool false, some rest)
    | '"' :: rest =>
      match readPieces rest with
      | some (pieces, rest) => (.string ((joinPieces pieces).map String.ofList), some rest)
      | none => (.fault, none)
    | '-' :: rest => numberDocument (readNumeral true rest)
    | '[' :: rest =>
      match skipBlanks rest with
      | ']' :: rest => (.array [] true, some rest)
      | rest =>
        let (items, rest) := readItems fuel rest
        (.array items rest.isSome, rest)
    | '\x7b' :: rest =>
      match skipBlanks rest with
      | '\x7d' :: rest => (.object [] true, some rest)
      | rest =>
        let (members, rest) := readMembers fuel rest
        (.object members rest.isSome, rest)
    | _ => numberDocument (readNumeral false text)

/-- Reads items up to the closing bracket; one item must stand here. -/
def readItems (fuel : Nat) (text : List Char) : List Document × Option (List Char) :=
  match fuel with
  | 0 => ([], none)
  | fuel + 1 =>
    match readValue fuel text with
    | (item, none) => ([item], none)
    | (item, some rest) =>
      match skipBlanks rest with
      | ']' :: rest => ([item], some rest)
      | ',' :: rest =>
        let (items, rest) := readItems fuel (skipBlanks rest)
        (item :: items, rest)
      | _ => ([item], none)

/-- Reads members up to the closing brace; one member must stand here. -/
def readMembers (fuel : Nat) (text : List Char) :
    List (Option String × Document) × Option (List Char) :=
  match fuel with
  | 0 => ([], none)
  | fuel + 1 =>
    match text with
    | '"' :: rest =>
      match readPieces rest with
      | none => ([], none)
      | some (pieces, rest) =>
        let key := (joinPieces pieces).map String.ofList
        match skipBlanks rest with
        | ':' :: rest =>
          match readValue fuel (skipBlanks rest) with
          | (item, none) => ([(key, item)], none)
          | (item, some rest) =>
            match skipBlanks rest with
            | '\x7d' :: rest => ([(key, item)], some rest)
            | ',' :: rest =>
              let (members, rest) := readMembers fuel (skipBlanks rest)
              ((key, item) :: members, rest)
            | _ => ([(key, item)], none)
        | _ => ([(key, .fault)], none)
    | _ => ([], none)

end

/-- Reads the first value of a text, blanks before it skipped. -/
def readFirst (text : List Char) : Document × Option (List Char) :=
  readValue (2 * text.length + 2) (skipBlanks text)

/-! Values -/

/-- Values may be nested in fewer than this many arrays and objects. -/
def depthLimit : Nat := 128

mutual

/-- The value of a document, if it is well formed and nested in fewer than `depth`
levels. -/
def Document.value? (depth : Nat) : Document → Option Json
  | .null => some .null
  | .bool value => some (.bool value)
  | .number value => value.map .number
  | .string value => value.map .string
  | .array items closed =>
    if depth ≤ 1 || !closed then none else (Document.values? (depth - 1) items).map .array
  | .object members closed =>
    if depth ≤ 1 || !closed then none
    else (Document.membersValue? (depth - 1) members).map Json.ofMembers
  | .fault => none

/-- The values of documents, if all have one. -/
def Document.values? (depth : Nat) : List Document → Option (List Json)
  | [] => some []
  | d :: ds =>
    match d.value? depth with
    | none => none
    | some v => (Document.values? depth ds).map (v :: ·)

/-- The values of members, if all have one. -/
def Document.membersValue? (depth : Nat) :
    List (Option String × Document) → Option (List (String × Json))
  | [] => some []
  | (key, d) :: ds =>
    match key, d.value? depth with
    | some k, some v => (Document.membersValue? depth ds).map ((k, v) :: ·)
    | _, _ => none

end

mutual

/-- Whether a document was read to its end. Its numbers and texts may still stand for
nothing. -/
def Document.isComplete : Document → Bool
  | .array items closed => closed && Document.allComplete items
  | .object members closed => closed && Document.membersComplete members
  | .fault => false
  | _ => true

/-- Whether all of some documents were read to their ends. -/
def Document.allComplete : List Document → Bool
  | [] => true
  | d :: ds => d.isComplete && Document.allComplete ds

/-- Whether the values of all members were read to their ends. -/
def Document.membersComplete : List (Option String × Document) → Bool
  | [] => true
  | (_, d) :: ds => d.isComplete && Document.membersComplete ds

end

def formatName : String := "json"

def malformed : Mismatch := .unreadable formatName

/-- Whether only blanks are left. -/
def atEnd : Option (List Char) → Bool
  | none => false
  | some rest => (skipBlanks rest).isEmpty

/-- The one value of a text. -/
def parse (text : String) : Except Mismatch Json :=
  match readFirst text.toList with
  | (document, rest) =>
    match document.value? depthLimit with
    | some value => if atEnd rest then .ok value else .error malformed
    | none => .error malformed

/-- What a document is, for a message; a document without a value is malformed. -/
def Document.mismatch (expected : String) : Document → Mismatch
  | .null => .wrongType .null expected
  | .bool value => .wrongType (.boolean value) expected
  | .number (some value) => .wrongType (Json.number value).found expected
  | .number none => malformed
  | .string (some value) => .wrongType (.string value) expected
  | .string none => malformed
  | .array _ _ => .wrongType .sequence expected
  | .object _ _ => .wrongType .map expected
  | .fault => malformed

/-- The members of a text that is one object, in ascending key order, the last of
several members with one key counting. -/
def parseMembers (text : String) : Except Mismatch (List (String × Json)) :=
  match readFirst text.toList with
  | (.object members closed, rest) =>
    match (Document.object members closed).value? depthLimit with
    | some (.object members) => if atEnd rest then .ok members else .error malformed
    | _ => .error malformed
  | (document, _) => .error (document.mismatch "a map")

end RoutineWatch.Json
