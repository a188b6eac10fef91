import RoutineWatch.Glob.Basic

/-!
# Reading globs

Reading a glob from its pattern. `?` stands for one byte, `*` for any, a class in
brackets for one byte of it, and a group in braces for one of its alternatives; a
backslash makes the next character stand for itself. Two stars between slashes stand
for any number of directories.

- `Glob.parse`: the glob of a pattern, or why it is none.
-/
namespace RoutineWatch.Glob

/-- Why a pattern is no glob. -/
inductive Fault where
  | unclosedClass
  | reversedRange (first last : Char)
  | unopenedGroup
  | unclosedGroup
  | danglingEscape
deriving DecidableEq, Repr

def Fault.text : Fault → String
  | .unclosedClass => "unclosed character class; missing ']'"
  | .reversedRange first last =>
    "invalid range; '" ++ first.toString ++ "' > '" ++ last.toString ++ "'"
  | .unopenedGroup =>
    "unopened alternate group; missing '\x7b' (maybe escape '\x7d' with '[\x7d]'?)"
  | .unclosedGroup =>
    "unclosed alternate group; missing '\x7d' (maybe escape '\x7b' with '[\x7b]'?)"
  | .danglingEscape => "dangling '\\'"

def Fault.message (pattern : String) (fault : Fault) : String :=
  "error parsing glob '" ++ pattern ++ "': " ++ fault.text

/-! Classes -/

def charBytes (c : Char) : Bytes := Utf8.encode c.toString

/-- A range of characters as ranges of bytes: a class is one of bytes, so of a range's
ends only the last byte of the first and the first byte of the last make a range. -/
def byteRanges (range : Char × Char) : List (UInt8 × UInt8) :=
  let single (b : UInt8) := (b, b)
  if range.1 = range.2 then (charBytes range.1).map single
  else
    let first := charBytes range.1
    let last := charBytes range.2
    first.dropLast.map single ++
      (first.getLast?.bind fun a => last.head?.map fun b => (a, b)).toList ++
      (last.drop 1).map single

/-- The ranges of a class, as far as they are read, last first. -/
abbrev Ranges := List (Char × Char)

/-- Makes a character the end of the last range. -/
def closeRange (c : Char) : Ranges → Except Fault Ranges
  | [] => .ok [(c, c)]
  | r :: rs => if c < r.1 then .error (.reversedRange r.1 c) else .ok ((r.1, c) :: rs)

/-- Reads a class up to its closing bracket. `first` tells whether nothing was read
yet, and `ranging` whether a hyphen was read that may join two characters. -/
def readRanges (first ranging : Bool) (ranges : Ranges) :
    List Char → Except Fault (Ranges × List Char)
  | [] => .error .unclosedClass
  | c :: rest =>
    if c = ']' && !first then .ok (if ranging then ('-', '-') :: ranges else ranges, rest)
    else if c = '-' && !first && !ranging then readRanges false true ranges rest
    else if ranging then do readRanges false false (← closeRange c ranges) rest
    else readRanges false false ((c, c) :: ranges) rest

/-- Reads a class after its opening bracket. -/
def readClass : List Char → Except Fault (ByteClass × List Char)
  | '!' :: rest => made true (readRanges true false [] rest)
  | '^' :: rest => made true (readRanges true false [] rest)
  | rest => made false (readRanges true false [] rest)
where
  /-- The set that the ranges make. -/
  made (negated : Bool) (read : Except Fault (Ranges × List Char)) :
      Except Fault (ByteClass × List Char) :=
    read.map fun r => (⟨negated, r.1.reverse.flatMap byteRanges⟩, r.2)

theorem readRanges_length {first ranging : Bool} {ranges found : Ranges}
    {text rest : List Char} (h : readRanges first ranging ranges text = .ok (found, rest)) :
    rest.length < text.length := by
  induction text generalizing first ranging ranges with
  | nil => simp [readRanges] at h
  | cons c text ih =>
    simp only [readRanges] at h
    split at h
    · injection h with h
      injection h with _ h
      simp [← h]
    · split at h
      · exact Nat.lt_succ_of_lt (ih h)
      · split at h
        · cases hc : closeRange c ranges with
          | error e => simp [hc, bind, Except.bind] at h
          | ok ranges =>
            simp only [hc, bind, Except.bind] at h
            exact Nat.lt_succ_of_lt (ih h)
        · exact Nat.lt_succ_of_lt (ih h)

theorem readClass_made_length {negated : Bool} {text rest : List Char} {c : ByteClass}
    (h : readClass.made negated (readRanges true false [] text) = .ok (c, rest)) :
    rest.length < text.length := by
  unfold readClass.made at h
  cases read : readRanges true false [] text with
  | error e => simp [read, Except.map] at h
  | ok found =>
    simp only [read, Except.map, Except.ok.injEq, Prod.mk.injEq] at h
    rw [← h.2]
    exact readRanges_length read

/-- A class is not empty text. -/
theorem readClass_length {text rest : List Char} {c : ByteClass}
    (h : readClass text = .ok (c, rest)) : rest.length < text.length := by
  unfold readClass at h
  split at h
  · exact Nat.lt_succ_of_lt (readClass_made_length h)
  · exact Nat.lt_succ_of_lt (readClass_made_length h)
  · exact readClass_made_length h

/-! Patterns -/

inductive Piece where
  | part (g : Glob)
  /-- Two stars and a slash at the front. -/
  | above
  /-- A slash and two stars at the end. -/
  | beneath
  /-- Two stars between two slashes. -/
  | between
deriving DecidableEq, Repr

def slash : Glob := .byte (.only 47)

/-- What a piece matches. -/
def Piece.glob : Piece → Glob
  | .part g => g
  | .above => .either (.either .blank slash) (.both .star slash)
  | .beneath => .both slash .star
  | .between => .either slash (.both slash (.both .star slash))

/-- The pieces of a branch, last first. -/
abbrev Branch := List Piece

/-- What a branch matches. -/
def Branch.glob (branch : Branch) : Glob := sequence (branch.reverse.map Piece.glob)

/-- A group that is not closed yet: what stands before it, and its finished branches,
last first. -/
structure OpenGroup where
  before : Branch
  branches : List Glob
deriving DecidableEq, Repr

/-- A pattern as far as it is read. -/
structure ReadState where
  /-- The branch that pieces are added to. -/
  branch : Branch
  /-- The groups around it, innermost first. -/
  groups : List OpenGroup
deriving DecidableEq, Repr

namespace ReadState

/-- The state before the first character. -/
def start : ReadState := ⟨[], []⟩

def push (s : ReadState) (piece : Piece) : ReadState := { s with branch := piece :: s.branch }

/-- Adds two plain stars. -/
def pushStars (s : ReadState) : ReadState := (s.push (.part .star)).push (.part .star)

def openGroup (s : ReadState) : ReadState := ⟨[], ⟨s.branch, []⟩ :: s.groups⟩

/-- Ends a branch of a group. Outside of groups a comma stands for itself. -/
def comma (s : ReadState) : ReadState :=
  match s.groups with
  | [] => s.push (.part (exactly (charBytes ',')))
  | group :: groups => ⟨[], { group with branches := s.branch.glob :: group.branches } :: groups⟩

def closeGroup (s : ReadState) : Except Fault ReadState :=
  match s.groups with
  | [] => .error .unopenedGroup
  | group :: groups =>
    let branches := (s.branch.glob :: group.branches).reverse
    .ok ⟨.part (choice branches) :: group.before, groups⟩

/-- Puts stars for directories in place of the slash before them; after stars of that
kind at the front they add nothing. -/
def deepen (s : ReadState) (piece : Piece) : ReadState :=
  match s.branch with
  | .above :: _ => s
  | _ :: branch => { s with branch := piece :: branch }
  | [] => s.push piece

/-- Whether two stars that follow `before` may stand for directories. -/
def mayDeepen (s : ReadState) (before : Option Char) : Bool :=
  before = some '/' || (!s.groups.isEmpty && (before = some ',' || before = some '\x7b'))

/-- Adds two stars, with the character before them and the text after them. The rest is
given back, less a slash that they take in. -/
def stars (s : ReadState) (before : Option Char) (text : List Char) : ReadState × List Char :=
  if s.branch.isEmpty then
    match text with
    | [] => (s.push .above, [])
    | c :: rest => if c = '/' then (s.push .above, rest) else (s.pushStars, c :: rest)
  else if !s.mayDeepen before then (s.pushStars, text)
  else
    match text with
    | [] => (s.deepen .beneath, [])
    | c :: rest =>
      if !s.groups.isEmpty && (c = ',' || c = '\x7d') then (s.deepen .beneath, c :: rest)
      else if c = '/' then (s.deepen .between, rest)
      else (s.pushStars, c :: rest)

theorem stars_length (s : ReadState) (before : Option Char) (text : List Char) :
    (s.stars before text).2.length ≤ text.length := by
  unfold stars
  repeat' split
  all_goals simp

/-- The glob of a whole pattern. Two stars alone match everything. -/
def finish (s : ReadState) : Except Fault Glob :=
  if !s.groups.isEmpty then .error .unclosedGroup
  else if s.branch = [.above] then .ok .star
  else .ok s.branch.glob

end ReadState

/-- Reads the rest of a pattern; `before` is the character before it. -/
def read (before : Option Char) (s : ReadState) (text : List Char) : Except Fault Glob :=
  match text with
  | [] => s.finish
  | '?' :: rest => read (some '?') (s.push (.part (.byte .all))) rest
  | '*' :: '*' :: rest =>
    let after := s.stars before rest
    read (some (if after.2.length < rest.length then '/' else '*')) after.1 after.2
  | '*' :: rest => read (some '*') (s.push (.part .star)) rest
  | '[' :: rest =>
    match _class : readClass rest with
    | .error fault => .error fault
    | .ok (c, after) => read (some ']') (s.push (.part (.byte c))) after
  | '\x7b' :: rest => read (some '\x7b') s.openGroup rest
  | '\x7d' :: rest =>
    match s.closeGroup with
    | .error fault => .error fault
    | .ok s => read (some '\x7d') s rest
  | ',' :: rest => read (some ',') s.comma rest
  | ['\\'] => .error .danglingEscape
  | '\\' :: c :: rest => read (some c) (s.push (.part (exactly (charBytes c)))) rest
  | c :: rest => read (some c) (s.push (.part (exactly (charBytes c)))) rest
termination_by text.length
decreasing_by
  all_goals simp only [List.length_cons]
  all_goals try omega
  · have := ReadState.stars_length s before rest
    omega
  · have := readClass_length _class
    omega

def parse (pattern : String) : Except Fault Glob := read none .start pattern.toList

end RoutineWatch.Glob
