import RoutineWatch.Diff.Edit
import RoutineWatch.Text.Basic

/-!
# Unified diffs

Unified diffs. The steps of an edit script are joined to blocks, blocks with little
between them to hunks, and each hunk is written under a header that tells where it
stands in both texts.

- `Diff.blocks`, `Diff.hunks`: from an edit script to hunks.
- `Diff.unified`: the text.

The header of a hunk is told by its first and its last block, as the steps of the script have
it; see `Diff.Edit` on where a step stands in the text that it has no lines in.
-/
namespace RoutineWatch.Diff

/-- Lines that are kept, or old lines with the new lines instead of them. -/
structure Block where
  kept : Bool
  oldStart : Nat
  oldSize : Nat
  newStart : Nat
  newSize : Nat
deriving DecidableEq, Repr

namespace Block

def ofEdit (e : Edit) : Block :=
  match e.kind with
  | .keep => ⟨true, e.oldStart, e.length, e.newStart, e.length⟩
  | .delete => ⟨false, e.oldStart, e.length, e.newStart, 0⟩
  | .insert => ⟨false, e.oldStart, 0, e.newStart, e.length⟩

/-- A block with one more step, which is kept or changed as the block is. The old start
comes from the first deletion and the new one from the first insertion. -/
def extend (b : Block) (e : Edit) : Block :=
  match e.kind with
  | .keep => { b with oldSize := b.oldSize + e.length, newSize := b.newSize + e.length }
  | .delete =>
    { b with
      oldStart := if b.oldSize = 0 then e.oldStart else b.oldStart
      oldSize := b.oldSize + e.length }
  | .insert =>
    { b with
      newStart := if b.newSize = 0 then e.newStart else b.newStart
      newSize := b.newSize + e.length }

/-- Kept lines without the first `n`. -/
def dropFirst (b : Block) (n : Nat) : Block :=
  { b with
    oldStart := b.oldStart + n, oldSize := b.oldSize - n
    newStart := b.newStart + n, newSize := b.newSize - n }

/-- The first `n` kept lines. -/
def takeFirst (b : Block) (n : Nat) : Block := { b with oldSize := n, newSize := n }

end Block

/-- Adds a step to blocks listed backwards. -/
def addEdit : List Block → Edit → List Block
  | [], e => [Block.ofEdit e]
  | b :: bs, e =>
    if b.kept = decide (e.kind = .keep) then b.extend e :: bs else Block.ofEdit e :: b :: bs

/-- The blocks of a script; kept and changed ones alternate. -/
def blocks (script : List Edit) : List Block := (script.foldl addEdit []).reverse

/-- How many kept lines are shown around a change. -/
def context : Nat := 3

/-- The first block, if it is kept, with its last lines only. -/
def trimFirst : List Block → List Block
  | b :: bs => if b.kept then b.dropFirst (b.oldSize - context) :: bs else b :: bs
  | [] => []

/-- The last block, if it is kept, with its first lines only. -/
def trimLast (bs : List Block) : List Block :=
  match bs.reverse with
  | b :: before =>
    if b.kept then (b.takeFirst (min b.oldSize context) :: before).reverse else bs
  | [] => []

def isHunk : List Block → Bool
  | [] => false
  | [b] => !b.kept
  | _ => true

/-- Groups blocks; kept lines that are more than twice the context end a group and
start the next. `pending` is the group under way, backwards. -/
def group (pending : List Block) : List Block → List (List Block)
  | [] => if isHunk pending.reverse then [pending.reverse] else []
  | b :: bs =>
    if b.kept && b.oldSize > 2 * context then
      (b.takeFirst context :: pending).reverse ::
        group [b.dropFirst (b.oldSize - context)] bs
    else group (b :: pending) bs

def hunks (script : List Edit) : List (List Block) :=
  group [] (trimLast (trimFirst (blocks script)))

/-- A range of lines as a header writes it: counted from one, the length left out when
it is one, and the line before when there is none. -/
def rangeText (start stop : Nat) : String :=
  let size := stop - start
  if size = 1 then toString (start + 1)
  else if size = 0 then toString start ++ ",0"
  else toString (start + 1) ++ "," ++ toString size

def hunkHeader (hunk : List Block) : String :=
  match hunk.head?, hunk.getLast? with
  | some first, some last =>
    "@@ -" ++ rangeText first.oldStart (last.oldStart + last.oldSize) ++
      " +" ++ rangeText first.newStart (last.newStart + last.newSize) ++ " @@\n"
  | _, _ => ""

/-- What follows a line that has no end. -/
def unendedMark : List Char := "\n\\ No newline at end of file\n".toList

/-- A line of a hunk behind its mark. -/
def lineText (mark : Char) (line : DiffLine) : List Char :=
  if Line.isEnded line then mark :: line else mark :: line ++ unendedMark

/-- Lines of a text from `start` on. -/
def slice (lines : Lines) (start size : Nat) : List DiffLine :=
  (lines.extract start (start + size)).toList

def blockText (old new : Lines) (b : Block) : List Char :=
  if b.kept then (slice old b.oldStart b.oldSize).flatMap (lineText ' ')
  else
    (slice old b.oldStart b.oldSize).flatMap (lineText '-') ++
      (slice new b.newStart b.newSize).flatMap (lineText '+')

def hunkText (old new : Lines) (hunk : List Block) : List Char :=
  (hunkHeader hunk).toList ++ hunk.flatMap (blockText old new)

/-- The unified diff of two texts under the given names; without a difference it is
empty. -/
def unified (oldName newName old new : String) : String :=
  let oldLines := (Line.atAnyEnd old.toList).toArray
  let newLines := (Line.atAnyEnd new.toList).toArray
  match hunks (script oldLines newLines) with
  | [] => ""
  | groups =>
    "--- " ++ oldName ++ "\n+++ " ++ newName ++ "\n" ++
      String.ofList (groups.flatMap (hunkText oldLines newLines))

end RoutineWatch.Diff
