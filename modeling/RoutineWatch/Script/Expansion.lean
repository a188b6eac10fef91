import RoutineWatch.Script.Arithmetic
import RoutineWatch.Script.Reader
import RoutineWatch.Script.Session

/-!
# Expansion of words

Expansion of words into fields. Parameters, expressions and the output of scripts are put
in; what came in unquoted is split at blanks; and a field with stars outside of quotes
becomes the names it matches.

- `Script.expandWords`: the fields of some words.
-/
namespace RoutineWatch.Script

/-- How a character of an expansion came in. -/
inductive Mark where
  | plain
  /-- Unquoted, so blanks split it. -/
  | loose
  | quoted
deriving DecidableEq, Repr

/-- A piece of an expansion. -/
inductive Piece where
  | char (c : Char) (mark : Mark)
  /-- Keeps a field that is otherwise empty. -/
  | hold
  /-- Ends a field. -/
  | cut
deriving DecidableEq, Repr

/-- A field: its characters, and which of them are quoted. -/
abbrev Field := List (Char × Bool)

def piecesOf (mark : Mark) (text : Text) : List Piece :=
  let chars := text.map fun c => Piece.char c mark
  if mark = .quoted then .hold :: chars else chars

/-- The fields of pieces; `current` is the field that is being read, if there is one. -/
def fieldsOf (current : Option Field) : List Piece → List Field
  | [] => current.toList
  | .hold :: rest => fieldsOf (some (current.getD [])) rest
  | .cut :: rest => current.toList ++ fieldsOf none rest
  | .char c mark :: rest =>
    if mark = .loose && (c = ' ' || c = '\t' || c = '\n') then
      current.toList ++ fieldsOf none rest
    else fieldsOf (some (current.getD [] ++ [(c, decide (mark = .quoted))])) rest

def Field.text (field : Field) : Text := field.map (·.1)

/-! Patterns -/

/-- The ranges of a class up to its closing bracket, and the rest of the field. `fuel`
bounds its length. -/
def classRanges (fuel : Nat) (first : Bool) (field : Field) :
    Option (List (UInt8 × UInt8) × Field) :=
  match fuel, field with
  | fuel + 1, (c, quoted) :: rest =>
    if c = ']' && !quoted && !first then some ([], rest)
    else
      let low := UInt8.ofNat c.toNat
      let single := (classRanges fuel false rest).map fun r => ((low, low) :: r.1, r.2)
      match rest with
      | ('-', false) :: (d, dq) :: rest' =>
        if d = ']' && !dq then single
        else
          (classRanges fuel false rest').map fun r => ((low, UInt8.ofNat d.toNat) :: r.1, r.2)
      | _ => single
  | _, _ => none

/-- What a field matches as a pattern. `fuel` bounds its length. -/
def patternParts (fuel : Nat) (field : Field) : List Glob :=
  match fuel, field with
  | 0, _ => []
  | _ + 1, [] => []
  | fuel + 1, (c, quoted) :: rest =>
    let literal := Glob.byte (.only (UInt8.ofNat c.toNat)) :: patternParts fuel rest
    if quoted then literal
    else if c = '*' then .star :: patternParts fuel rest
    else if c = '?' then .byte .all :: patternParts fuel rest
    else if c = '[' then
      let (negated, inner) := match rest with
        | ('!', false) :: inner => (true, inner)
        | inner => (false, inner)
      match classRanges (inner.length + 1) true inner with
      | some (ranges, rest) => .byte ⟨negated, ranges⟩ :: patternParts fuel rest
      | none => literal
    else literal

/-- What a field matches as a pattern. -/
def Field.pattern (field : Field) : Glob := .sequence (patternParts (field.length + 1) field)

/-- Whether a field has anything that makes it a pattern. -/
def Field.isPattern (field : Field) : Bool :=
  field.any fun e => !e.2 && (e.1 = '*' || e.1 = '?' || e.1 = '[')

/-- The parts of a field between slashes. -/
def Field.split (field : Field) : List Field :=
  field.foldr (fun e parts =>
    if e.1 = '/' then [] :: parts
    else match parts with
      | [] => [[e]]
      | part :: parts => (e :: part) :: parts) [[]]

/-- The names that match parts of a field, starting with the texts found so far. -/
def matchParts (s : Session) (found : List Text) : List Field → List Text
  | [] => found
  | part :: parts =>
    let step (before : Text) : List Text :=
      if !part.isPattern then [before ++ part.text]
      else
        match s.tree.locate? s.here (Session.path (if before = [] then ['.'] else before)) with
        | .error _ => []
        | .ok place =>
          let names := (s.tree.names place).filter fun name =>
            part.pattern.accepts name && (name.head? ≠ some 46 || part.head?.map (·.1) = some '.')
          (names.mergeSort fun a b => !bytesLess b a).map fun name => before ++ ofBytes name
    let found := found.flatMap step
    if parts.isEmpty then
      found.filter fun text => match s.tree.follow false s.here (Session.path text) with
        | .found _ => true
        | _ => false
    else matchParts s (found.map (· ++ ['/'])) parts

/-- The names that a field stands for: itself, if it is no pattern or matches none. -/
def Field.names (s : Session) (field : Field) : List Text :=
  if !field.isPattern then [field.text]
  else
    match matchParts s [[]] field.split with
    | [] => [field.text]
    | names => names

/-! Expansion -/

abbrev Capture := Text → Session → Session × Text

/-- An expansion so far: the session, and the pieces or the complaint that ended it. -/
abbrev Expanded := Session × Except Text (List Piece)

/-- Puts one expansion after another. -/
def Expanded.then (e : Expanded) (next : Session → Expanded) : Expanded :=
  match e with
  | (s, .error text) => (s, .error text)
  | (s, .ok pieces) =>
    match next s with
    | (s, .ok more) => (s, .ok (pieces ++ more))
    | failed => failed

/-- The mark of a part that is put in. -/
def markOf (quoted : Bool) : Mark := if quoted then .quoted else .loose

def argumentPieces (s : Session) (joined quoted : Bool) : List Piece :=
  if joined && quoted then piecesOf .quoted (List.intercalate [' '] s.arguments)
  else List.intercalate [Piece.cut] (s.arguments.map (piecesOf (markOf quoted)))

def numberValue (s : Session) (name : Text) : Int :=
  ((s.value? name).bind Arithmetic.integer?).getD 0

/-- Drops the line ends at the end of a text, and what no text can hold. -/
def capturedText (text : Text) : Text :=
  ((text.filter (· ≠ '\x00')).reverse.dropWhile (· = '\n')).reverse

mutual

/-- Expands the parts of a word. -/
def expandParts (fuel : Nat) (capture : Capture) (parts : Word) (s : Session) : Expanded :=
  match fuel, parts with
  | fuel + 1, part :: rest =>
    (expandPart fuel capture part s).then (expandParts fuel capture rest)
  | _, _ => (s, .ok [])

def expandPart (fuel : Nat) (capture : Capture) (part : Part) (s : Session) : Expanded :=
  match fuel with
  | 0 => (s, .ok [])
  | fuel + 1 =>
    match part with
    | .text chars quoted => (s, .ok (piecesOf (if quoted then .quoted else .plain) chars))
    | .parameter name none quoted =>
      if name = ['@'] || name = ['*'] then (s, .ok (argumentPieces s (name = ['*']) quoted))
      else (s, .ok (piecesOf (markOf quoted) ((s.parameter? name).getD [])))
    | .parameter name (some substitute) quoted =>
      let value := s.parameter? name
      let isMissing (orEmpty : Bool) : Bool := value.isNone || (orEmpty && value = some [])
      let own := piecesOf (markOf quoted) (value.getD [])
      match substitute with
      | .length => (s, .ok (piecesOf (markOf quoted) (ofString (toString (value.getD []).length))))
      | .fallback orEmpty source =>
        if isMissing orEmpty then expandSource fuel capture quoted source s else (s, .ok own)
      | .alternative orEmpty source =>
        if isMissing orEmpty then (s, .ok (piecesOf (markOf quoted) []))
        else expandSource fuel capture quoted source s
      | .assign orEmpty source =>
        if isMissing orEmpty then
          match expandSource fuel capture true source s with
          | (s, .ok pieces) =>
            let text := ((fieldsOf none pieces).map Field.text).flatten
            (s.assign name text, .ok (piecesOf (markOf quoted) text))
          | failed => failed
        else (s, .ok own)
    | .arithmetic source quoted =>
      match expandSource fuel capture true source s with
      | (s, .ok pieces) =>
        let text := ((fieldsOf none pieces).map Field.text).flatten
        match Arithmetic.evaluate (numberValue s) text with
        | some n => (s, .ok (piecesOf (markOf quoted) (ofString (toString n))))
        | none => (s, .error (ofString "arithmetic expression: expecting primary: \"" ++ text ++ ['"']))
      | failed => failed
    | .output source quoted =>
      let (s, text) := capture source s
      (s, .ok (piecesOf (markOf quoted) (capturedText text)))

/-- Expands a text that stands for a parameter. -/
def expandSource (fuel : Nat) (capture : Capture) (quoted : Bool) (source : Text)
    (s : Session) : Expanded :=
  match fuel with
  | 0 => (s, .ok [])
  | fuel + 1 =>
    if quoted then
      match readQuoted (source.length + 1) none source with
      | .error fault => (s, .error fault.message)
      | .ok (parts, _) => expandParts fuel capture parts s
    else
      match readItems (source.length + 1) source with
      | .error fault => (s, .error fault.message)
      | .ok (words, _) => expandParts fuel capture (List.intercalate [.text [' '] false] words) s

end

/-- The length of what a part has to expand. -/
def partLength : Part → Nat
  | .text _ _ => 1
  | .parameter _ none _ => 1
  | .parameter _ (some .length) _ => 1
  | .parameter _ (some (.fallback _ source)) _ => source.length + 1
  | .parameter _ (some (.assign _ source)) _ => source.length + 1
  | .parameter _ (some (.alternative _ source)) _ => source.length + 1
  | .arithmetic source _ => source.length + 1
  | .output source _ => source.length + 1

/-- Bound for the nesting and the length of a word. -/
def wordFuel (w : Word) : Nat := 4 * w.foldl (fun n part => n + partLength part) 0 + 4

/-- Expands words into fields. -/
def expandWords (capture : Capture) (words : List Word) (s : Session) :
    Session × Except Text (List Text) :=
  words.foldl (fun r w =>
    match r with
    | (s, .error text) => (s, .error text)
    | (s, .ok fields) =>
      match expandParts (wordFuel w) capture w s with
      | (s, .error text) => (s, .error text)
      | (s, .ok pieces) =>
        (s, .ok (fields ++ (fieldsOf none pieces).flatMap (Field.names s)))) (s, .ok [])

def oneField (pieces : List Piece) : Field :=
  pieces.filterMap fun
    | .char c mark => some (c, decide (mark = .quoted))
    | .cut => some (' ', true)
    | .hold => none

def expandField (capture : Capture) (w : Word) (s : Session) : Session × Except Text Field :=
  let (s, pieces) := expandParts (wordFuel w) capture w s
  (s, pieces.map oneField)

end RoutineWatch.Script
