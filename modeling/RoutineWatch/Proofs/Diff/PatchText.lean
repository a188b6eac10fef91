import Mathlib.Data.List.Basic
import RoutineWatch.Proofs.Diff.Patch

/-!
# How patches are written and read

Line by line. Reading goes from the last line up, so that a line is known to have no end
before it is read.

- `Diff.readHunks_entries`: what is read of a written patch is that patch.
-/
namespace RoutineWatch.Diff

/-! Writing -/

/-- What a line of a diff is. -/
inductive EntryKind where
  | fileHeader
  | hunkHeader
  | hunkLine (role : Role)
  | endMark
deriving DecidableEq, Repr

/-- A line of a diff and what it is. -/
structure Entry where
  kind : EntryKind
  text : List Char
deriving DecidableEq, Repr

/-- The character before a line. -/
def Role.mark : Role → Char
  | context => ' '
  | removed => '-'
  | added => '+'

/-- What follows a line that has no end. -/
def noEndLine : List Char := "\\ No newline at end of file\n".toList

/-- A line without an end gets one, and a mark that tells that it has none. -/
def HunkLine.entries (line : HunkLine) : List Entry :=
  if line.text.getLast? = some '\n' then [⟨.hunkLine line.role, line.role.mark :: line.text⟩]
  else
    [⟨.hunkLine line.role, line.role.mark :: line.text ++ ['\n']⟩, ⟨.endMark, noEndLine⟩]

/-- A range as a header has it; the size is left out if it is one. -/
def Range.text (r : Range) : List Char :=
  if r.size = 1 then Nat.toDigits 10 r.first
  else Nat.toDigits 10 r.first ++ ',' :: Nat.toDigits 10 r.size

def PatchHunk.header (h : PatchHunk) : List Char :=
  "@@ -".toList ++ (h.old.text ++ (" +".toList ++ (h.new.text ++ " @@\n".toList)))

def PatchHunk.entries (h : PatchHunk) : List Entry :=
  ⟨.hunkHeader, h.header⟩ :: h.lines.flatMap HunkLine.entries

/-! Reading -/

/-- The number at the front, and what comes after it. -/
def readNumber (cs : List Char) : Option (Nat × List Char) :=
  match cs.takeWhile Char.isDigit with
  | [] => none
  | digits => some (Nat.ofDigitChars 10 digits 0, cs.dropWhile Char.isDigit)

def readRange (cs : List Char) : Option (Range × List Char) := do
  let (first, rest) ← readNumber cs
  match rest with
  | ',' :: rest =>
    let (size, rest) ← readNumber rest
    return (⟨first, size⟩, rest)
  | rest => return (⟨first, 1⟩, rest)

/-- What comes after a text at the front. -/
def readText (text cs : List Char) : Option (List Char) :=
  if text <+: cs then some (cs.drop text.length) else none

def readHeader (cs : List Char) : Option (Range × Range) := do
  let rest ← readText "@@ -".toList cs
  let (old, rest) ← readRange rest
  let rest ← readText " +".toList rest
  let (new, rest) ← readRange rest
  if rest = " @@\n".toList then return (old, new) else none

/-- What is read from some line of a diff on: whether the line before has no end, the rest
of the hunk before, and the hunks after that. -/
structure Reading where
  unended : Bool
  lines : List HunkLine
  hunks : List PatchHunk
deriving DecidableEq, Repr

/-- A line of a hunk is read before what comes after it. -/
def Reading.push (r : Reading) (role : Role) (text : List Char) : Reading :=
  ⟨false, ⟨role, if r.unended then text.dropLast else text⟩ :: r.lines, r.hunks⟩

/-- What the first character of a line tells about the line. -/
def Role.ofMark? (c : Char) : Option Role :=
  if c = ' ' then some context
  else if c = '-' then some removed
  else if c = '+' then some added
  else none

/-- Reads one more line, the one before those that have been read. -/
def readLine (line : List Char) (r : Reading) : Option Reading :=
  match line with
  | [] => none
  | c :: text =>
    match Role.ofMark? c with
    | some role => some (r.push role text)
    | none =>
      if r.unended then none
      else if c = '\\' then some { r with unended := true }
      else (readHeader line).map fun (old, new) => ⟨false, [], ⟨old, new, r.lines⟩ :: r.hunks⟩

def readLines : List (List Char) → Option Reading
  | [] => some ⟨false, [], []⟩
  | line :: lines => (readLines lines).bind (readLine line)

/-- The hunks of a diff, without the two lines before them. -/
def readHunks (lines : List (List Char)) : Option (List PatchHunk) :=
  match readLines lines with
  | some ⟨false, [], hunks⟩ => some hunks
  | _ => none

/-! What is written is read -/

/-- A number is read to its end if no digit follows. -/
theorem readNumber_toDigits (n : Nat) {rest : List Char}
    (ends : ∀ c ∈ rest.head?, c.isDigit = false) :
    readNumber (Nat.toDigits 10 n ++ rest) = some (n, rest) := by
  have digits : ∀ c ∈ Nat.toDigits 10 n, c.isDigit = true := fun c member =>
    Nat.isDigit_of_mem_toDigits (by decide) (by decide) member
  have taken : (Nat.toDigits 10 n ++ rest).takeWhile Char.isDigit = Nat.toDigits 10 n := by
    rw [List.takeWhile_append_of_pos digits]
    cases rest with
    | nil => exact List.append_nil _
    | cons c cs => simp [ends c rfl]
  have left : (Nat.toDigits 10 n ++ rest).dropWhile Char.isDigit = rest := by
    rw [List.dropWhile_append_of_pos digits]
    cases rest with
    | nil => rfl
    | cons c cs => simp [ends c rfl]
  unfold readNumber
  rw [taken, left]
  split
  · next none => exact absurd none Nat.toDigits_ne_nil
  · rw [Nat.ofDigitChars_ten_toDigits]

theorem readRange_text (r : Range) {rest : List Char}
    (ends : ∀ c ∈ rest.head?, c.isDigit = false ∧ c ≠ ',') :
    readRange (r.text ++ rest) = some (r, rest) := by
  obtain ⟨first, size⟩ := r
  have noDigit : ∀ c ∈ rest.head?, c.isDigit = false := fun c head => (ends c head).1
  unfold Range.text readRange
  split
  · next single =>
    cases single
    rw [readNumber_toDigits first noDigit]
    cases rest with
    | nil => rfl
    | cons c cs =>
      have other := (ends c rfl).2
      simp only [Option.bind_eq_bind, Option.bind_some, Option.pure_def]
      split
      · next comma =>
        injection comma with same
        exact absurd same other
      · rfl
  · rw [List.append_assoc, readNumber_toDigits first (by simp)]
    simp [readNumber_toDigits size noDigit]

theorem readText_append (text rest : List Char) : readText text (text ++ rest) = some rest := by
  rw [readText, if_pos (List.prefix_append _ _), List.drop_left]

theorem readHeader_header (h : PatchHunk) : readHeader h.header = some (h.old, h.new) := by
  have old : readRange (h.old.text ++ (" +".toList ++ (h.new.text ++ " @@\n".toList))) =
      some (h.old, " +".toList ++ (h.new.text ++ " @@\n".toList)) :=
    readRange_text h.old (by simp)
  have new : readRange (h.new.text ++ " @@\n".toList) = some (h.new, " @@\n".toList) :=
    readRange_text h.new (by simp)
  unfold readHeader PatchHunk.header
  simp only [readText_append, old, new, Option.bind_eq_bind, Option.bind_some, ↓reduceIte]
  rfl

@[simp] theorem ofMark?_mark (role : Role) : Role.ofMark? role.mark = some role := by
  cases role <;> rfl

theorem readLine_mark (role : Role) (text : List Char) (r : Reading) :
    readLine (role.mark :: text) r = some (r.push role text) := by
  simp [readLine]

theorem readLine_noEndLine {r : Reading} (ended : r.unended = false) :
    readLine noEndLine r = some { r with unended := true } := by
  have notRole : Role.ofMark? '\\' = none := by decide
  have start : noEndLine = '\\' :: noEndLine.tail := by decide
  rw [start]
  simp only [readLine, notRole, ended]
  rfl

theorem readLine_header (h : PatchHunk) {r : Reading} (ended : r.unended = false) :
    readLine h.header r = some ⟨false, [], ⟨h.old, h.new, r.lines⟩ :: r.hunks⟩ := by
  have notRole : Role.ofMark? '@' = none := by decide
  have start : h.header = '@' :: h.header.tail := by simp [PatchHunk.header]
  have whole := readHeader_header h
  rw [start] at whole ⊢
  simp [readLine, notRole, ended, whole]

/-- A line of a hunk is read before what comes after it. -/
theorem readLines_hunkLine (line : HunkLine) {lines : List (List Char)} {r : Reading}
    (after : readLines lines = some r) (ended : r.unended = false) :
    readLines (line.entries.map (·.text) ++ lines) = some ⟨false, line :: r.lines, r.hunks⟩ := by
  unfold HunkLine.entries
  split
  · simp [readLines, after, readLine_mark, Reading.push, ended]
  · simp [readLines, after, readLine_noEndLine ended, readLine_mark, Reading.push]

theorem readLines_hunkLines (body : List HunkLine) {lines : List (List Char)} {r : Reading}
    (after : readLines lines = some r) (ended : r.unended = false) :
    readLines ((body.flatMap HunkLine.entries).map (·.text) ++ lines) =
      some ⟨false, body ++ r.lines, r.hunks⟩ := by
  induction body with
  | nil => simp [after, ← ended]
  | cons line body ih => simpa using readLines_hunkLine line ih rfl

theorem readLines_hunk (h : PatchHunk) {lines : List (List Char)} {hs : List PatchHunk}
    (after : readLines lines = some ⟨false, [], hs⟩) :
    readLines (h.entries.map (·.text) ++ lines) = some ⟨false, [], h :: hs⟩ := by
  have body := readLines_hunkLines h.lines after rfl
  have whole := readLine_header h (r := ⟨false, h.lines ++ [], hs⟩) rfl
  rw [PatchHunk.entries, List.map_cons, List.cons_append, readLines, body, Option.bind_some, whole,
    List.append_nil]

/-- What is written is read. -/
theorem readHunks_entries (p : List PatchHunk) :
    readHunks ((p.flatMap PatchHunk.entries).map (·.text)) = some p := by
  have all : readLines ((p.flatMap PatchHunk.entries).map (·.text)) = some ⟨false, [], p⟩ := by
    induction p with
    | nil => rfl
    | cons h hs ih => simpa using readLines_hunk h ih
  rw [readHunks, all]

end RoutineWatch.Diff
