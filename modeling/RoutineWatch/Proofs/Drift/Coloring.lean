import RoutineWatch.Proofs.Drift.Patch

/-!
# How the lines of a diff are colored

The style is told by the first characters of a line, and it is the one for what the line is,
with one exception: a line that was removed and begins with two dashes, or was added and
begins with two pluses, looks like one of the two lines that name the texts, and is shown as
these are.

- `Drift.lineStyle_eq_iff`: which lines have the style for what they are.
- `Drift.render_exact`: the whole diff.
- `Drift.dashed_line_bold`: a line of the exception.
-/
namespace RoutineWatch

namespace Diff

/-- The style for what a line is. -/
def EntryKind.style : EntryKind → Style
  | fileHeader => .bold
  | hunkHeader => .cyan
  | hunkLine .context => .plain
  | hunkLine .removed => .red
  | hunkLine .added => .green
  | endMark => .plain

/-- A changed line that looks like one that names a text. -/
def Entry.Disguised (e : Entry) : Prop :=
  e.kind = .hunkLine .removed ∧ ['-', '-', '-'] <+: e.text ∨
    e.kind = .hunkLine .added ∧ ['+', '+', '+'] <+: e.text

instance (e : Entry) : Decidable e.Disguised := inferInstanceAs (Decidable (_ ∨ _))

/-- The lines of the diff of two texts, and what they are. -/
def entries (stated : List PatchHunk) : List Entry :=
  fileEntries "actual" "expected" ++ stated.flatMap PatchHunk.entries

end Diff

namespace Drift
open Diff

/-! Styles by the first characters -/

theorem lineStyle_dash (cs : List Char) :
    lineStyle ('-' :: cs) = if ['-', '-'] <+: cs then .bold else .red := by
  simp [lineStyle]

theorem lineStyle_plus (cs : List Char) :
    lineStyle ('+' :: cs) = if ['+', '+'] <+: cs then .bold else .green := by
  simp [lineStyle]

theorem lineStyle_at (cs : List Char) : lineStyle ('@' :: '@' :: cs) = .cyan := by
  simp [lineStyle]

theorem lineStyle_space (cs : List Char) : lineStyle (' ' :: cs) = .plain := by
  simp [lineStyle]

/-! Styles by what the lines are -/

/-- A line with the style that its role has, or the one of a line that names a text. -/
def Told (e : Entry) : Prop := lineStyle e.text = if e.Disguised then .bold else e.kind.style

theorem told_fileEntries : ∀ e ∈ fileEntries "actual" "expected", Told e := by
  unfold Told
  decide

theorem told_header (h : PatchHunk) : Told ⟨.hunkHeader, h.header⟩ := by
  have start : h.header = '@' :: '@' :: h.header.drop 2 := by simp [PatchHunk.header]
  have plain : ¬ Entry.Disguised ⟨.hunkHeader, h.header⟩ := by simp [Entry.Disguised]
  rw [Told, if_neg plain, start, lineStyle_at]
  rfl

/-- A line behind its mark. -/
theorem told_marked (role : Role) (text : List Char) :
    Told ⟨.hunkLine role, role.mark :: text⟩ := by
  unfold Told
  cases role with
  | context => simp [Role.mark, lineStyle_space, Entry.Disguised, EntryKind.style]
  | removed => simp [Role.mark, lineStyle_dash, Entry.Disguised, EntryKind.style]
  | added => simp [Role.mark, lineStyle_plus, Entry.Disguised, EntryKind.style]

theorem told_endMark : Told ⟨.endMark, noEndLine⟩ := by
  unfold Told
  decide

theorem told_hunkLine (line : HunkLine) : ∀ e ∈ line.entries, Told e := by
  unfold HunkLine.entries
  split
  · simpa using told_marked line.role line.text
  · simpa using ⟨told_marked line.role (line.text ++ ['\n']), told_endMark⟩

/-- Every line of a diff has the style for what it is, unless it is disguised. -/
theorem told_entries (stated : List PatchHunk) : ∀ e ∈ entries stated, Told e := by
  intro e member
  rw [entries, List.mem_append] at member
  obtain inFile | inHunks := member
  · exact told_fileEntries e inFile
  · obtain ⟨h, _, inHunk⟩ := List.mem_flatMap.1 inHunks
    rw [PatchHunk.entries, List.mem_cons] at inHunk
    obtain rfl | inBody := inHunk
    · exact told_header h
    · obtain ⟨line, _, inLine⟩ := List.mem_flatMap.1 inBody
      exact told_hunkLine line e inLine

theorem lineStyle_eq_iff {stated : List PatchHunk} {e : Entry} (member : e ∈ entries stated) :
    lineStyle e.text = e.kind.style ↔ ¬ e.Disguised := by
  have told := told_entries stated e member
  unfold Told at told
  by_cases disguised : e.Disguised
  · rw [if_pos disguised] at told
    refine iff_of_false ?_ (not_not_intro disguised)
    obtain ⟨kind, -⟩ | ⟨kind, -⟩ := disguised <;> rw [told, kind] <;> decide
  · rw [if_neg disguised] at told
    exact iff_of_true told disguised

/-- On a terminal with colors every line of a diff is painted in the style for what it is,
and only a disguised line is bold instead. What the lines are is what is read from the diff;
the removed ones are lines of the first text and the added ones lines of the second. -/
theorem render_exact {actual expected : String} (noReturn : '\r' ∉ actual.toList)
    (noReturn' : '\r' ∉ expected.toList) {drift : Drift}
    (checked : check actual expected = some drift) :
    ∃ stated right, Tells drift actual expected stated right ∧
      drift.lines = texts (entries stated) ∧
      drift.render true = String.ofList ((entries stated).flatMap fun e =>
        (if e.Disguised then Style.bold else e.kind.style).paint e.text) ∧
      ∀ e ∈ entries stated, lineStyle e.text = e.kind.style ↔ ¬ e.Disguised := by
  obtain ⟨right, tells⟩ := tells_of_check (Line.pairsReturns_of_not_mem noReturn)
    (Line.pairsReturns_of_not_mem noReturn') checked
  have names : texts (fileEntries "actual" "expected") =
      ["--- actual\n".toList, "+++ expected\n".toList] := by decide
  have lines : drift.lines = texts (entries (statedHunks actual expected)) := by
    rw [tells.lines, entries, texts_append, names, List.cons_append, List.cons_append,
      List.nil_append]
  refine ⟨_, right, tells, lines, ?_, fun e member => lineStyle_eq_iff member⟩
  have told := told_entries (statedHunks actual expected)
  rw [render, lines]
  generalize entries (statedHunks actual expected) = es at told
  congr 1
  induction es with
  | nil => rfl
  | cons e es ih =>
    obtain ⟨here, later⟩ := List.forall_mem_cons.1 told
    unfold Told at here
    simp only [texts, List.map_cons, List.flatMap_cons, ↓reduceIte, here] at ih ⊢
    rw [ih later]

/-- A text with a line less. -/
theorem dropped_line_colored :
    '\r' ∉ "a\nb\n".toList ∧ '\r' ∉ "b\n".toList ∧
      ∃ drift, check "a\nb\n" "b\n" = some drift ∧
        ∃ stated right, Tells drift "a\nb\n" "b\n" stated right ∧
          drift.lines = texts (entries stated) ∧
          drift.render true = String.ofList ((entries stated).flatMap fun e =>
            (if e.Disguised then Style.bold else e.kind.style).paint e.text) := by
  have noReturn : '\r' ∉ "a\nb\n".toList := by decide
  have noReturn' : '\r' ∉ "b\n".toList := by decide
  have checked : check "a\nb\n" "b\n" = some ⟨unified "actual" "expected" "a\nb\n" "b\n"⟩ :=
    if_neg (by decide)
  obtain ⟨stated, right, tells, lines, rendered, _⟩ := render_exact noReturn noReturn' checked
  exact ⟨noReturn, noReturn', _, checked, stated, right, tells, lines, rendered⟩

/-- A removed line that begins with two dashes is shown like the lines that name the texts. -/
theorem dashed_line_bold :
    ∃ drift, check "-- x\n" "" = some drift ∧
      readHunks (drift.lines.drop 2) =
        some [⟨⟨1, 1⟩, ⟨0, 0⟩, [⟨.removed, "-- x\n".toList⟩]⟩] ∧
      drift.render true = String.ofList
        (Style.bold.paint "--- actual\n".toList ++ Style.bold.paint "+++ expected\n".toList ++
          Style.cyan.paint "@@ -1 +0,0 @@\n".toList ++ Style.bold.paint "--- x\n".toList) := by
  refine ⟨⟨"--- actual\n+++ expected\n@@ -1 +0,0 @@\n--- x\n"⟩, ?_⟩
  decide +kernel

end Drift

end RoutineWatch
