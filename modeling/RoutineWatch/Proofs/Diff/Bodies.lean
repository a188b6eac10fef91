import RoutineWatch.Proofs.Diff.Hunks
import RoutineWatch.Proofs.Diff.Patch

/-!
# What the hunks of a script say

Under the headers that tell where they stand hunks lead from the old text to the new one. The
header that a hunk is written under takes its ends from the first and the last block instead,
which is right unless one of these has no lines on the side in question.

- `Diff.rightHunk`, `Diff.statedHunk`: a hunk under the one header and under the other.
- `Diff.Arranged.leads`: under the right headers hunks lead from the old text to the new one.
-/
namespace RoutineWatch.Diff

/-! Slices -/

theorem slice_eq (lines : Lines) (start size : Nat) :
    slice lines start size = (lines.toList.drop start).take size := by
  simp [slice, List.extract_eq_take_drop]

theorem slice_add (lines : Lines) (start m n : Nat) :
    slice lines start (m + n) = slice lines start m ++ slice lines (start + m) n := by
  rw [slice_eq, slice_eq, slice_eq, List.take_add, List.drop_drop]

theorem length_slice {lines : Lines} {start size : Nat} (inside : start + size ≤ lines.size) :
    (slice lines start size).length = size := by
  simp [slice_eq]
  omega

theorem drop_eq_slice (lines : Lines) (start size : Nat) :
    lines.toList.drop start = slice lines start size ++ lines.toList.drop (start + size) := by
  rw [slice_eq, ← List.drop_drop, List.take_append_drop]

theorem slice_agree {old new : Lines} {i j n : Nat} (agree : Agree old new i j n)
    (inOld : i + n ≤ old.size) (inNew : j + n ≤ new.size) : slice old i n = slice new j n := by
  apply List.ext_getElem
  · rw [length_slice inOld, length_slice inNew]
  · intro k less _
    rw [length_slice inOld] at less
    have same := agree k less
    rw [Array.getD, dif_pos (by omega), Array.getD, dif_pos (by omega)] at same
    simpa [slice_eq] using same

/-! Bodies -/

/-- The lines that a block is written as. -/
def Block.body (old new : Lines) (b : Block) : List HunkLine :=
  if b.kept then marked .context (slice old b.oldStart b.oldSize)
  else
    marked .removed (slice old b.oldStart b.oldSize) ++
      marked .added (slice new b.newStart b.newSize)

/-- A hunk under the header that tells where it stands. -/
def rightHunk (old new : Lines) (i j : Nat) (h : List Block) : PatchHunk :=
  ⟨.after i (total Block.oldSize h), .after j (total Block.newSize h),
    h.flatMap (Block.body old new)⟩

/-- A hunk under the header that it is written with: its first block tells the starts and
its last one the ends. -/
def statedHunk (old new : Lines) (h : List Block) : PatchHunk :=
  let oldStart := (h.head?.map (·.oldStart)).getD 0
  let newStart := (h.head?.map (·.newStart)).getD 0
  let oldEnd := (h.getLast?.map fun last => last.oldStart + last.oldSize).getD 0
  let newEnd := (h.getLast?.map fun last => last.newStart + last.newSize).getD 0
  ⟨.after oldStart (oldEnd - oldStart), .after newStart (newEnd - newStart),
    h.flatMap (Block.body old new)⟩

section
variable {old new : Lines} {noRemoved noAdded : Prop} {i j : Nat}

/-- A slice starts at its place if it has lines. -/
theorem slice_of_place {lines : Lines} {start place size : Nat}
    (atPlace : 0 < size → start = place) : slice lines start size = slice lines place size := by
  cases size with
  | zero => simp [slice_eq]
  | succ n => rw [atPlace (Nat.succ_pos n)]

theorem oldTexts_body {b : Block} (stands : b.Stands old new noRemoved noAdded i j) :
    oldTexts (b.body old new) = slice old i b.oldSize := by
  rw [← slice_of_place (fun filled => stands.oldPlace (.inl filled))]
  unfold Block.body
  split <;> simp

theorem newTexts_body {b : Block} (stands : b.Stands old new noRemoved noAdded i j)
    (inOld : i + b.oldSize ≤ old.size) (inNew : j + b.newSize ≤ new.size) :
    newTexts (b.body old new) = slice new j b.newSize := by
  unfold Block.body
  split
  · next kept =>
    have size := stands.sizes kept
    have agree := stands.agree kept
    have filled := stands.filled
    rw [stands.oldPlace (.inl (by omega)), newTexts_context,
      slice_agree agree inOld (by rwa [size]), size]
  · rw [← slice_of_place (fun filled => stands.newPlace (.inl filled))]
    simp

/-- The bodies of blocks in a row are the lines that the row takes up. -/
theorem texts_bodies {h : List Block} (lies : (pieces old new noRemoved noAdded).Lies i j h)
    (inOld : i + total Block.oldSize h ≤ old.size)
    (inNew : j + total Block.newSize h ≤ new.size) :
    oldTexts (h.flatMap (Block.body old new)) = slice old i (total Block.oldSize h) ∧
      newTexts (h.flatMap (Block.body old new)) = slice new j (total Block.newSize h) := by
  induction h generalizing i j with
  | nil => simp [slice_eq, oldTexts, newTexts]
  | cons b h ih =>
    obtain ⟨here, lies⟩ := lies
    simp only [total_cons] at inOld inNew
    obtain ⟨oldRest, newRest⟩ := ih lies (by simp; omega) (by simp; omega)
    simp only [List.flatMap_cons, oldTexts_append, newTexts_append, total_cons, slice_add]
    rw [oldTexts_body here, newTexts_body here (by omega) (by omega), oldRest, newRest]
    exact ⟨rfl, rfl⟩

/-! The right headers -/

theorem oldSpan_pieces (h : List Block) :
    (pieces old new noRemoved noAdded).oldSpan h = total Block.oldSize h := rfl

theorem newSpan_pieces (h : List Block) :
    (pieces old new noRemoved noAdded).newSpan h = total Block.newSize h := rfl

theorem Arranged.inside {hs : List (List Block)}
    (arranged : Arranged old new noRemoved noAdded i j hs) : i ≤ old.size ∧ j ≤ new.size := by
  induction arranged with
  | done _ atOld atNew => omega
  | hunk _ _ _ _ _ ih => omega

/-- A hunk that stands in both texts, and what it is under its right header. -/
inductive Placed (old new : Lines) (noRemoved noAdded : Prop) : List Block → PatchHunk → Prop where
  | stands {i j : Nat} {h : List Block} : h ≠ [] → Alternate h →
    (pieces old new noRemoved noAdded).Lies i j h →
    i + total Block.oldSize h ≤ old.size → j + total Block.newSize h ≤ new.size →
    Placed old new noRemoved noAdded h (rightHunk old new i j h)

/-- Under the right headers hunks lead from the old text to the new one. -/
theorem Arranged.leads {hs : List (List Block)}
    (arranged : Arranged old new noRemoved noAdded i j hs) :
    ∃ right, List.Forall₂ (Placed old new noRemoved noAdded) hs right ∧
      Leads i j right (old.toList.drop i) (new.toList.drop j) := by
  induction arranged with
  | @done i j gap agree atOld atNew =>
    refine ⟨[], .nil, ?_⟩
    have same := slice_agree agree (by omega) (by omega)
    rw [drop_eq_slice old i gap, drop_eq_slice new j gap, same, atOld, atNew,
      List.drop_of_length_le (Nat.le_of_eq old.length_toList),
      List.drop_of_length_le (Nat.le_of_eq new.length_toList)]
    exact .rest
  | @hunk i j gap h hs agree filled alternate lies arranged ih =>
    obtain ⟨right, placed, leads⟩ := ih
    obtain ⟨inOld, inNew⟩ := arranged.inside
    simp only [oldSpan_pieces, newSpan_pieces] at inOld inNew leads
    obtain ⟨oldLines, newLines⟩ := texts_bodies lies inOld inNew
    have same := slice_agree agree (by omega) (by omega)
    have length : (slice old i gap).length = gap := length_slice (by omega)
    have sizeOld : (rightHunk old new (i + gap) (j + gap) h).oldLines.length =
        total Block.oldSize h := by
      rw [PatchHunk.oldLines, rightHunk, oldLines, length_slice inOld]
    have sizeNew : (rightHunk old new (i + gap) (j + gap) h).newLines.length =
        total Block.newSize h := by
      rw [PatchHunk.newLines, rightHunk, newLines, length_slice inNew]
    have splitOld : old.toList.drop i = slice old i gap ++
        (rightHunk old new (i + gap) (j + gap) h).oldLines ++
          old.toList.drop (i + gap + total Block.oldSize h) := by
      rw [PatchHunk.oldLines, rightHunk, oldLines, List.append_assoc, ← drop_eq_slice,
        ← drop_eq_slice]
    have splitNew : new.toList.drop j = slice old i gap ++
        (rightHunk old new (i + gap) (j + gap) h).newLines ++
          new.toList.drop (j + gap + total Block.newSize h) := by
      rw [PatchHunk.newLines, rightHunk, newLines, same, List.append_assoc, ← drop_eq_slice,
        ← drop_eq_slice]
    refine ⟨_, .cons (.stands filled alternate lies inOld inNew) placed, ?_⟩
    rw [splitOld, splitNew]
    refine .hunk ?_ ?_ ?_
    · rw [length, sizeOld, rightHunk]
    · rw [length, sizeNew, rightHunk]
    · rwa [length, sizeOld, sizeNew]

end

end RoutineWatch.Diff
