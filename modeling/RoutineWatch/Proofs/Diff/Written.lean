import RoutineWatch.Proofs.Diff.Headers
import RoutineWatch.Proofs.Diff.PatchText
import RoutineWatch.Proofs.Text.Lines

/-!
# The text of a diff, line by line

Every hunk is written as its header and its marked lines, and as each of these ends in a line
feed, its only one, they are the lines of the diff.

- `Diff.unified_lines`: a diff is cut into the lines that it was written as.
-/
namespace RoutineWatch.Diff

/-! Headers -/

theorem rangeText_toList (start stop : Nat) :
    (rangeText start stop).toList = (Range.after start (stop - start)).text := by
  unfold rangeText Range.text Range.after
  dsimp only
  split
  · next single => simp [single, Nat.toList_repr]
  · split
    · next none => simp [none, Nat.toList_repr]
    · next more => simp [*, Nat.toList_repr]

theorem hunkHeader_toList (old new : Lines) {h : List Block} (filled : h ≠ []) :
    (hunkHeader h).toList = (statedHunk old new h).header := by
  obtain ⟨first, later, before, last, front, back⟩ := exists_ends filled
  have head : h.head? = some first := by rw [front, List.head?_cons]
  have getLast : h.getLast? = some last := by rw [back, List.getLast?_concat]
  unfold hunkHeader PatchHunk.header
  obtain ⟨oldRange, newRange⟩ := statedHunk_ranges old new front back
  rw [oldRange, newRange]
  simp [head, getLast, rangeText_toList]

/-! Bodies -/

/-- What is written of lines, without what they are. -/
def texts (entries : List Entry) : List (List Char) := entries.map (·.text)

@[simp] theorem texts_append (entries entries' : List Entry) :
    texts (entries ++ entries') = texts entries ++ texts entries' :=
  List.map_append

theorem lineText_eq (role : Role) {line : DiffLine} (proper : Line.Proper line) :
    lineText role.mark line = (texts (HunkLine.entries ⟨role, line⟩)).flatten := by
  unfold lineText HunkLine.entries
  by_cases ended : line.getLast? = some '\n'
  · rw [if_pos ended, if_pos (proper.isEnded_iff.2 ended)]
    simp [texts]
  · rw [if_neg ended, if_neg (ended ∘ proper.isEnded_iff.1)]
    have split : unendedMark = '\n' :: noEndLine := by decide
    simp [texts, split]

theorem marked_eq (role : Role) {lines : List DiffLine}
    (proper : ∀ line ∈ lines, Line.Proper line) :
    lines.flatMap (lineText role.mark) =
      (texts ((marked role lines).flatMap HunkLine.entries)).flatten := by
  induction lines with
  | nil => rfl
  | cons line lines ih =>
    obtain ⟨here, later⟩ := List.forall_mem_cons.1 proper
    simp [marked, lineText_eq role here, ih later]

theorem mem_of_mem_slice {lines : Lines} {start size : Nat} {line : DiffLine}
    (member : line ∈ slice lines start size) : line ∈ lines.toList := by
  rw [slice_eq] at member
  exact List.mem_of_mem_drop (List.mem_of_mem_take member)

section
variable {old new : Lines} (properOld : ∀ line ∈ old.toList, Line.Proper line)
  (properNew : ∀ line ∈ new.toList, Line.Proper line)
include properOld properNew

theorem blockText_eq (b : Block) :
    blockText old new b = (texts ((b.body old new).flatMap HunkLine.entries)).flatten := by
  have inOld (start size : Nat) : ∀ line ∈ slice old start size, Line.Proper line :=
    fun line member => properOld line (mem_of_mem_slice member)
  have inNew (start size : Nat) : ∀ line ∈ slice new start size, Line.Proper line :=
    fun line member => properNew line (mem_of_mem_slice member)
  unfold blockText Block.body
  split
  · exact marked_eq .context (inOld _ _)
  · rw [List.flatMap_append, texts_append, List.flatten_append, ← marked_eq .removed (inOld _ _),
      ← marked_eq .added (inNew _ _)]
    rfl

theorem hunkText_eq {h : List Block} (filled : h ≠ []) :
    hunkText old new h = (texts (statedHunk old new h).entries).flatten := by
  have body : h.flatMap (blockText old new) =
      (texts ((h.flatMap (Block.body old new)).flatMap HunkLine.entries)).flatten := by
    clear filled
    induction h with
    | nil => rfl
    | cons b h ih => simp [blockText_eq properOld properNew b, ih]
  rw [hunkText, hunkHeader_toList old new filled, body]
  rfl

/-- A line of a hunk is a line of one of the texts. -/
theorem proper_of_mem_body {b : Block} {line : HunkLine} (member : line ∈ b.body old new) :
    Line.Proper line.text := by
  unfold Block.body marked at member
  split at member
  · obtain ⟨text, inSlice, rfl⟩ := List.mem_map.1 member
    exact properOld text (mem_of_mem_slice inSlice)
  · obtain inOld | inNew := List.mem_append.1 member
    · obtain ⟨text, inSlice, rfl⟩ := List.mem_map.1 inOld
      exact properOld text (mem_of_mem_slice inSlice)
    · obtain ⟨text, inSlice, rfl⟩ := List.mem_map.1 inNew
      exact properNew text (mem_of_mem_slice inSlice)

end

/-! Lines -/

theorem ended_noEndLine : Line.Ended noEndLine :=
  ⟨"\\ No newline at end of file".toList, by decide, by decide⟩

theorem ended_entries {line : HunkLine} (proper : Line.Proper line.text) :
    ∀ text ∈ texts line.entries, Line.Ended text := by
  have noFeed : '\n' ≠ line.role.mark := by
    cases line.role <;> decide
  unfold HunkLine.entries
  split
  · next feed =>
    obtain ⟨body, single, eq⟩ := proper.ended_of_feed feed
    have marked : Line.Ended (line.role.mark :: line.text) :=
      ⟨line.role.mark :: body, by simp [noFeed, single], by rw [eq]; rfl⟩
    simpa [texts] using marked
  · next other =>
    have marked : Line.Ended (line.role.mark :: line.text ++ ['\n']) :=
      ⟨line.role.mark :: line.text, by simp [noFeed, proper.not_mem other], rfl⟩
    simpa [texts, ended_noEndLine] using marked

theorem feed_notMem_digits (n : Nat) : '\n' ∉ Nat.toDigits 10 n := by
  intro member
  have digit := Nat.isDigit_of_mem_toDigits (by decide) (by decide) member
  exact absurd digit (by decide)

theorem feed_notMem_range (r : Range) : '\n' ∉ r.text := by
  unfold Range.text
  split <;> simp [feed_notMem_digits]

theorem ended_header (h : PatchHunk) : Line.Ended h.header := by
  refine ⟨"@@ -".toList ++ (h.old.text ++ (" +".toList ++ (h.new.text ++ " @@".toList))), ?_, ?_⟩
  · simp [feed_notMem_range]
  · simp [PatchHunk.header]

theorem ended_hunk {h : PatchHunk} (proper : ∀ line ∈ h.lines, Line.Proper line.text) :
    ∀ text ∈ texts h.entries, Line.Ended text := by
  intro text member
  rw [texts, PatchHunk.entries, List.map_cons, List.mem_cons] at member
  obtain rfl | inBody := member
  · exact ended_header h
  · rw [List.map_flatMap] at inBody
    obtain ⟨line, inHunk, inLine⟩ := List.mem_flatMap.1 inBody
    exact ended_entries (proper line inHunk) text inLine

/-- The two lines before the hunks of a diff. -/
def fileEntries (oldName newName : String) : List Entry :=
  [⟨.fileHeader, ("--- " ++ oldName ++ "\n").toList⟩,
    ⟨.fileHeader, ("+++ " ++ newName ++ "\n").toList⟩]

/-- The lines of a text, by position. -/
def linesOf (text : String) : Lines := (Line.atLineFeed text.toList).toArray

/-- The hunks of two texts as they are written. -/
def statedHunks (old new : String) : List PatchHunk :=
  (hunks (script (linesOf old) (linesOf new))).map (statedHunk (linesOf old) (linesOf new))

theorem fileEntries_ended {oldName newName : String} (oldSingle : '\n' ∉ oldName.toList)
    (newSingle : '\n' ∉ newName.toList) :
    ∀ text ∈ texts (fileEntries oldName newName), Line.Ended text := by
  have first : Line.Ended ("--- " ++ oldName ++ "\n").toList :=
    ⟨("--- " ++ oldName).toList, by simp [oldSingle], by simp⟩
  have second : Line.Ended ("+++ " ++ newName ++ "\n").toList :=
    ⟨("+++ " ++ newName).toList, by simp [newSingle], by simp⟩
  intro text member
  simp only [texts, fileEntries, List.map_cons, List.map_nil, List.mem_cons, List.not_mem_nil,
    or_false] at member
  obtain rfl | rfl := member
  · exact first
  · exact second

section
variable {old new : String} (pairsOld : Line.PairsReturns old.toList)
  (pairsNew : Line.PairsReturns new.toList)
include pairsOld pairsNew

/-- A diff is what its lines are put together to. -/
theorem unified_toList (oldName newName : String) (differ : statedHunks old new ≠ []) :
    (unified oldName newName old new).toList =
      (texts (fileEntries oldName newName ++
        (statedHunks old new).flatMap PatchHunk.entries)).flatten := by
  have filled := (hunks_arranged (script_covers (linesOf old) (linesOf new))).ne_nil
  have properOld : ∀ line ∈ (linesOf old).toList, Line.Proper line :=
    Line.proper_of_mem_atLineFeed pairsOld
  have properNew : ∀ line ∈ (linesOf new).toList, Line.Proper line :=
    Line.proper_of_mem_atLineFeed pairsNew
  have body : (hunks (script (linesOf old) (linesOf new))).flatMap
      (hunkText (linesOf old) (linesOf new)) =
        (texts ((statedHunks old new).flatMap PatchHunk.entries)).flatten := by
    unfold statedHunks
    generalize hunks (script (linesOf old) (linesOf new)) = hs at filled
    induction hs with
    | nil => rfl
    | cons h hs ih =>
      obtain ⟨here, later⟩ := List.forall_mem_cons.1 filled
      simp [hunkText_eq properOld properNew here, ih later]
  rw [texts_append, List.flatten_append, ← body]
  unfold unified
  simp only [Line.atAnyEnd_eq pairsOld, Line.atAnyEnd_eq pairsNew]
  split
  · next none =>
    have same : statedHunks old new = [] := by
      unfold statedHunks linesOf
      rw [none, List.map_nil]
    exact absurd same differ
  · simp [texts, fileEntries, linesOf]

/-- A diff is cut into the lines that it was written as. -/
theorem unified_lines {oldName newName : String} (oldSingle : '\n' ∉ oldName.toList)
    (newSingle : '\n' ∉ newName.toList) (differ : statedHunks old new ≠ []) :
    Line.atLineFeed (unified oldName newName old new).toList =
      texts (fileEntries oldName newName ++ (statedHunks old new).flatMap PatchHunk.entries) := by
  rw [unified_toList pairsOld pairsNew _ _ differ]
  refine Line.atLineFeed_flatten fun text member => ?_
  rw [texts_append, List.mem_append] at member
  obtain inFile | inHunks := member
  · exact fileEntries_ended oldSingle newSingle text inFile
  · rw [texts, List.map_flatMap] at inHunks
    obtain ⟨stated, inStated, inEntries⟩ := List.mem_flatMap.1 inHunks
    obtain ⟨h, inHunks, rfl⟩ := List.mem_map.1 inStated
    refine ended_hunk (fun line inHunk => ?_) text inEntries
    obtain ⟨b, _, inBody⟩ := List.mem_flatMap.1 inHunk
    exact proper_of_mem_body (Line.proper_of_mem_atLineFeed pairsOld)
      (Line.proper_of_mem_atLineFeed pairsNew) inBody

end

end RoutineWatch.Diff
