import Mathlib.Data.List.Forall2
import RoutineWatch.Drift
import RoutineWatch.Proofs.Text.Lines

/-!
# What of a diff reaches an output

Without colors it is the diff. With colors each line stands alone or between a sequence that
sets its style and one that clears it; these sequences are all that is added, and without
them what is left is the diff again.

- `Drift.render_keeps_content`: this, for any diff.
-/
namespace RoutineWatch.Drift

/-- A part of what is sent to a terminal. -/
inductive Sent where
  | text (cs : List Char)
  /-- A sequence that the terminal acts on. -/
  | control (cs : List Char)
deriving DecidableEq, Repr

/-- The characters that are sent. -/
def Sent.chars : Sent → List Char
  | text cs => cs
  | control cs => cs

/-- What is left when the sequences for the terminal are deleted. -/
def Sent.kept : Sent → List Char
  | text cs => cs
  | control _ => []

/-- A line alone, or in one style that is set before it and cleared after it. -/
inductive Shown : List Char → List Sent → Prop where
  | alone {line : List Char} (plain : lineStyle line = .plain) : Shown line [.text line]
  | styled {line : List Char} {style : Style} (own : lineStyle line = style)
      (visible : style ≠ .plain) :
      Shown line [.control style.start, .text line, .control Style.reset]

/-- What is painted is shown. -/
theorem exists_shown (line : List Char) :
    ∃ parts, Shown line parts ∧ (lineStyle line).paint line = parts.flatMap Sent.chars := by
  by_cases plain : lineStyle line = .plain
  · refine ⟨[.text line], .alone plain, ?_⟩
    simp [Style.paint, plain, Sent.chars]
  · refine ⟨[.control (lineStyle line).start, .text line, .control Style.reset],
      .styled rfl plain, ?_⟩
    simp [Style.paint, plain, Sent.chars]

/-- Of a line that is shown nothing is lost, and nothing is added to its text. -/
theorem Shown.kept {line : List Char} {parts : List Sent} (shown : Shown line parts) :
    parts.flatMap Sent.kept = line := by
  cases shown with
  | alone => simp [Sent.kept]
  | styled => simp [Sent.kept]

/-- Lines that are painted one after the other are shown one after the other. -/
theorem exists_all_shown (lines : List (List Char)) :
    ∃ rows, List.Forall₂ Shown lines rows ∧
      lines.flatMap (fun line => (lineStyle line).paint line) =
        rows.flatten.flatMap Sent.chars := by
  induction lines with
  | nil => exact ⟨[], .nil, rfl⟩
  | cons line lines ih =>
    obtain ⟨parts, shown, painted⟩ := exists_shown line
    obtain ⟨rows, others, rest⟩ := ih
    refine ⟨parts :: rows, .cons shown others, ?_⟩
    rw [List.flatMap_cons, painted, rest, List.flatten_cons, List.flatMap_append]

theorem kept_of_all_shown {lines : List (List Char)} {rows : List (List Sent)}
    (shown : List.Forall₂ Shown lines rows) :
    rows.flatten.flatMap Sent.kept = lines.flatten := by
  induction shown with
  | nil => rfl
  | cons first _ ih =>
    rw [List.flatten_cons, List.flatMap_append, first.kept, ih, List.flatten_cons]

/-- Whatever the diff is, an output without colors gets just the diff, and one with colors gets
its lines, each alone or in its style, from which deleting what sets and clears the styles
gives the diff. -/
theorem render_keeps_content (d : Drift) :
    d.render false = d.diff ∧
      (∀ lines, Line.LinesOf d.diff.toList lines ↔ lines = d.lines) ∧
      ∃ rows, List.Forall₂ Shown d.lines rows ∧
        d.render true = String.ofList (rows.flatten.flatMap Sent.chars) ∧
        String.ofList (rows.flatten.flatMap Sent.kept) = d.diff := by
  have whole : String.ofList d.lines.flatten = d.diff := by
    rw [lines, Line.flatten_atLineFeed, String.ofList_toList]
  refine ⟨?_, fun lines => Line.linesOf_iff, ?_⟩
  · rw [← whole]
    simp [render, List.flatMap_id']
  · obtain ⟨rows, shown, painted⟩ := exists_all_shown d.lines
    refine ⟨rows, shown, ?_, ?_⟩
    · rw [← painted]
      simp [render]
    · rw [kept_of_all_shown shown, whole]

end RoutineWatch.Drift
