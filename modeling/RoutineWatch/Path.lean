import RoutineWatch.Text.Utf8

/-!
# File paths

File paths. A path is a row of bytes whose parts are separated by slashes; empty parts
and parts `.` lead nowhere. `Path.posix` writes a path without them, which is the form
in which all paths are compared. Parts `..` stay, since links may stand before them.

- `Path.posix`: the normal form.
- `Path.parent?`, `Path.ancestors`: going up.
- `Path.components`, `Path.stripPrefix?`: paths as comparisons see them.

Specification, § 10.5, for the normal form.
-/
namespace RoutineWatch

/-- A path, as raw bytes. -/
structure Path where
  bytes : Bytes
deriving DecidableEq, Repr

/-- The byte of the separator. -/
def slash : UInt8 := 47

/-- A part that stays where it is. -/
def dot : Bytes := [46]

/-- A part that goes up. -/
def dotDot : Bytes := [46, 46]

namespace Path

def ofString (text : String) : Path := ⟨Utf8.encode text⟩

/-- The path as a text; malformed bytes show as U+FFFD. -/
def display (p : Path) : String := Utf8.lossy p.bytes

/-- The parts between slashes, empty ones included. -/
def pieces : Bytes → List Bytes
  | [] => [[]]
  | b :: bytes =>
    if b = slash then [] :: pieces bytes
    else
      match pieces bytes with
      | [] => [[b]]
      | part :: parts => (b :: part) :: parts

/-- The parts that lead somewhere. -/
def parts (p : Path) : List Bytes := (pieces p.bytes).filter fun part => part ≠ [] ∧ part ≠ dot

/-- Whether a path starts at the root of the file system. -/
def isAbsolute (p : Path) : Bool := p.bytes.head? = some slash

/-- Parts with slashes between them. -/
def joinParts : List Bytes → Bytes
  | [] => []
  | [part] => part
  | part :: parts => part ++ slash :: joinParts parts

/-- A path as a text in normal form: a leading slash if it is absolute, then its parts
with single slashes between them. -/
def posix (p : Path) : String :=
  let body := String.intercalate "/" (p.parts.map Utf8.lossy)
  if p.isAbsolute then "/" ++ body else body

/-- The path `q` seen from `p`. An absolute path stands for itself. -/
def join (p q : Path) : Path :=
  if q.isAbsolute then q
  else if p.bytes = [] || p.bytes.getLast? = some slash then ⟨p.bytes ++ q.bytes⟩
  else ⟨p.bytes ++ slash :: q.bytes⟩

/-- The path of an entry of a directory. -/
def child (p : Path) (name : Bytes) : Path := p.join ⟨name⟩

/-- Drops slashes and idle parts from the end of a reversed path, down to a part that
leads somewhere. A dot counts as idle when a slash, or nothing if `atStart`, is before
it. -/
def dropIdle : Bytes → Bytes
  | [] => []
  | b :: bytes =>
    if b = slash then dropIdle bytes
    else if b = 46 && bytes.head? = some slash then dropIdle bytes
    else b :: bytes

/-- A path without idle parts at its end. A leading `.` is kept, and so is the slash of
the root. -/
def trimEnd (p : Path) : Path :=
  let kept := (dropIdle p.bytes.reverse).reverse
  if kept = [] && p.isAbsolute then ⟨[slash]⟩ else ⟨kept⟩

/-- The path without its last part; `none` for the root and for the empty path. -/
def parent? (p : Path) : Option Path :=
  let kept := (dropIdle p.bytes.reverse).reverse
  if kept = [] then none
  else
    let before := (kept.reverse.dropWhile (· ≠ slash)).reverse
    some (trimEnd ⟨before⟩)

theorem dropIdle_length (bytes : Bytes) : (dropIdle bytes).length ≤ bytes.length := by
  induction bytes with
  | nil => simp [dropIdle]
  | cons b bytes ih =>
    simp only [dropIdle]
    split
    · exact Nat.le_succ_of_le ih
    · split
      · exact Nat.le_succ_of_le ih
      · exact Nat.le_refl _

theorem head?_dropIdle (bytes : Bytes) : (dropIdle bytes).head? ≠ some slash := by
  induction bytes with
  | nil => simp [dropIdle]
  | cons b bytes ih =>
    simp only [dropIdle]
    split
    · exact ih
    · split
      · exact ih
      · next h _ => simpa using h

/-- Going up shortens a path. -/
theorem parent?_length {p q : Path} (h : p.parent? = some q) :
    q.bytes.length < p.bytes.length := by
  unfold parent? at h
  simp only [List.reverse_eq_nil_iff, List.reverse_reverse] at h
  split at h
  · exact absurd h (by simp)
  · next kept =>
    injection h with h
    subst h
    have short := dropIdle_length p.bytes.reverse
    have head := head?_dropIdle p.bytes.reverse
    generalize dropIdle p.bytes.reverse = row at kept short head
    cases row with
    | nil => exact absurd rfl kept
    | cons b row =>
      have moved : b ≠ slash := fun e => head (by simp [e])
      have rest : ((b :: row).dropWhile (· ≠ slash)).length ≤ row.length := by
        rw [List.dropWhile_cons]
        simp only [ne_eq, moved, not_false_eq_true, decide_true, if_true]
        exact (List.dropWhile_suffix _).length_le
      generalize (b :: row).dropWhile (· ≠ slash) = before at rest
      have trimmed : (trimEnd ⟨before.reverse⟩).bytes.length ≤ before.length := by
        unfold trimEnd
        simp only [List.reverse_reverse]
        split
        · next root =>
          have : before ≠ [] := by
            rintro rfl
            simp [isAbsolute] at root
          have := List.length_pos_iff.2 this
          simp only [List.length_cons, List.length_nil]
          omega
        · simpa using dropIdle_length before
      simp only [List.length_cons, List.length_reverse] at short
      omega

/-- A path and what is above it, nearest first. -/
def ancestors (p : Path) : List Path :=
  match _above : p.parent? with
  | some q => p :: ancestors q
  | none => [p]
termination_by p.bytes.length
decreasing_by exact parent?_length _above

/-- The parts of a path as comparisons see them: the slash of the root or the dot a
relative path starts with, then the parts that lead somewhere. -/
def components (p : Path) : List Bytes :=
  if p.isAbsolute then [slash] :: p.parts
  else if (pieces p.bytes).head? = some dot then dot :: p.parts
  else p.parts

/-- What is left of a path below another one. -/
def stripPrefix? (p top : Path) : Option Path :=
  if top.components.isPrefixOf p.components then
    some ⟨joinParts (p.components.drop top.components.length)⟩
  else none

/-- The last part, if it names an entry. -/
def fileName? (p : Path) : Option Bytes :=
  match p.parts.getLast? with
  | some part => if part = dotDot then none else some part
  | none => none

end Path

/-- What follows the last dot of a name; a name that only starts with a dot has
none. -/
def extension? (name : Bytes) : Option Bytes :=
  if name.contains 46 then
    let after := (name.reverse.takeWhile (· ≠ 46)).reverse
    if after.length + 1 = name.length then none else some after
  else none

/-- The order of names: by bytes. -/
def bytesLess : Bytes → Bytes → Bool
  | _, [] => false
  | [], _ :: _ => true
  | a :: as, b :: bs => a < b || (a = b && bytesLess as bs)

end RoutineWatch
