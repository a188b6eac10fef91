import RoutineWatch.Toml.Scalar

/-!
# Reading TOML text

Reading TOML text: values, keys, and the sections of a document. A section is a header
with the entries below it; what the sections build together is told elsewhere.

- `Toml.readDocument`: the sections of a document.
-/
namespace RoutineWatch.Toml

/-- An entry as written: the parts of its key, and its value. -/
abbrev Entry := List String × Toml

/-! Keys -/

/-- What an unquoted key consists of. -/
def isBare (c : Char) : Bool :=
  ('a' ≤ c && c ≤ 'z') || ('A' ≤ c && c ≤ 'Z') || isDigit c || c = '-' || c = '_'

def readKeyPart (text : List Char) : Option (String × List Char) :=
  match text with
  | '"' :: rest => (readBasic (rest.length + 1) rest).map fun (cs, rest) => (String.ofList cs, rest)
  | '\'' :: rest => (readLiteral rest).map fun (cs, rest) => (String.ofList cs, rest)
  | text =>
    let bare := text.takeWhile isBare
    if bare.isEmpty then none else some (String.ofList bare, text.dropWhile isBare)

/-- The parts of a key, blanks around each skipped. -/
def readKeyParts : Nat → List Char → Option (List String × List Char)
  | 0, _ => none
  | fuel + 1, text => do
    let (part, rest) ← readKeyPart (skipBlanks text)
    match skipBlanks rest with
    | '.' :: rest =>
      let (parts, rest) ← readKeyParts fuel rest
      some (part :: parts, rest)
    | rest => some ([part], rest)

/-- A key of acceptable length. -/
def readKey (text : List Char) : Option (List String × List Char) := do
  let (parts, rest) ← readKeyParts (text.length + 1) text
  if parts.length < depthLimit then some (parts, rest) else none

/-! Tables on one line -/

/-- A table under construction. Tables made by dotted keys can still be added to. -/
inductive Inline where
  | value (value : Toml)
  | dotted (entries : List (String × Inline))

def Inline.add (entries : List (String × Inline)) :
    List String → Toml → Option (List (String × Inline))
  | [], _ => none
  | [key], v =>
    if entries.any (·.1 = key) then none else some (entries ++ [(key, .value v)])
  | key :: key' :: keys, v =>
    match entries.find? (·.1 = key) with
    | none => do
      let inner ← Inline.add [] (key' :: keys) v
      some (entries ++ [(key, .dotted inner)])
    | some (_, .dotted inner) => do
      let inner ← Inline.add inner (key' :: keys) v
      some (entries.map fun e => if e.1 = key then (key, .dotted inner) else e)
    | some (_, .value _) => none

mutual

def Inline.finish : Inline → Toml
  | .value v => v
  | .dotted entries => .table (Inline.finishEntries entries)

def Inline.finishEntries : List (String × Inline) → List (String × Toml)
  | [] => []
  | (k, v) :: es => (k, v.finish) :: Inline.finishEntries es

end

/-- The table that entries make together, if none repeats another. -/
def inlineTable? (entries : List Entry) : Option Toml := do
  let built ← entries.foldlM (fun es e => Inline.add es e.1 e.2) []
  some (.table (Inline.finishEntries built))

/-! Values -/

mutual

def readValue (fuel depth : Nat) (text : List Char) : Option (Toml × List Char) :=
  match fuel with
  | 0 => none
  | fuel + 1 =>
    match text with
    | '[' :: rest =>
      if depth + 1 < depthLimit then do
        let (items, rest) ← readItems fuel (depth + 1) rest
        some (.array items, rest)
      else none
    | '\x7b' :: rest =>
      if depth + 1 < depthLimit then
        match skipBlanks rest with
        | '\x7d' :: rest => some (.table [], rest)
        | rest => do
          let (entries, rest) ← readEntries fuel (depth + 1) rest
          some ((← inlineTable? entries), rest)
      else none
    | '"' :: _ => (readString text).map fun (s, rest) => (.string s, rest)
    | '\'' :: _ => (readString text).map fun (s, rest) => (.string s, rest)
    | text => readPlainScalar text

def readItems (fuel depth : Nat) (text : List Char) : Option (List Toml × List Char) :=
  match fuel with
  | 0 => none
  | fuel + 1 =>
    match skipSpace text with
    | ']' :: rest => some ([], rest)
    | text => do
      let (item, rest) ← readValue fuel depth text
      match skipSpace rest with
      | ']' :: rest => some ([item], rest)
      | ',' :: rest =>
        let (items, rest) ← readItems fuel depth rest
        some (item :: items, rest)
      | _ => none

def readEntries (fuel depth : Nat) (text : List Char) : Option (List Entry × List Char) :=
  match fuel with
  | 0 => none
  | fuel + 1 => do
    let (key, rest) ← readKey text
    let rest ← expect '=' rest
    let (value, rest) ← readValue fuel depth (skipBlanks rest)
    match skipBlanks rest with
    | '\x7d' :: rest => some ([(key, value)], rest)
    | ',' :: rest =>
      let (entries, rest) ← readEntries fuel depth rest
      some ((key, value) :: entries, rest)
    | _ => none

end

/-! Sections -/

/-- What the entries below a header belong to. -/
inductive Header where
  /-- The document itself. -/
  | root
  | table (path : List String)
  /-- One more table of an array of tables. -/
  | element (path : List String)
deriving Repr

/-- A header with the entries below it. -/
structure Section where
  header : Header
  entries : List Entry

def readHeader (text : List Char) : Option (Header × List Char) :=
  match text with
  | '[' :: rest => do
    let (path, rest) ← readKey rest
    let rest ← expect ']' rest
    let rest ← expect ']' rest
    some (.element path, ← finishLine? rest)
  | text => do
    let (path, rest) ← readKey text
    let rest ← expect ']' rest
    some (.table path, ← finishLine? rest)

def readEntry (text : List Char) : Option (Entry × List Char) := do
  let (key, rest) ← readKey text
  let rest ← expect '=' rest
  let (value, rest) ← readValue (2 * rest.length + 2) 0 (skipBlanks rest)
  some ((key, value), ← finishLine? rest)

/-- The sections of a text; `entries` are those of the section under way, backwards. -/
def readSections : Nat → Header → List Entry → List Char → Option (List Section)
  | 0, _, _, _ => none
  | fuel + 1, header, entries, text =>
    match skipSpace text with
    | [] => some [⟨header, entries.reverse⟩]
    | '[' :: rest => do
      let (next, rest) ← readHeader rest
      let sections ← readSections fuel next [] rest
      some (⟨header, entries.reverse⟩ :: sections)
    | text => do
      let (entry, rest) ← readEntry text
      readSections fuel header (entry :: entries) rest

/-- The sections of a document, a byte order mark before it skipped. -/
def readDocument (text : String) : Option (List Section) :=
  let chars := match text.toList with
    | '\uFEFF' :: rest => rest
    | chars => chars
  readSections (chars.length + 1) .root [] chars

end RoutineWatch.Toml
