import RoutineWatch.Diff.Edit

/-!
# Patches

What the hunks of a unified diff say, and what becomes of a text that they are applied to.
Nothing is taken on trust: a hunk is applied only if its header counts its lines and tells
their places in both texts, and if the lines that it keeps and removes are there.

- `Diff.PatchHunk`: a hunk as it is read.
- `Diff.applyFrom`: applying hunks to the rest of a text.
- `Diff.applyFrom_eq_some`: hunks are applied exactly if they lead somewhere.
- `Diff.Leads.reverse`: they lead back as well.

Nothing here depends on how a diff is found.
-/
namespace RoutineWatch.Diff

/-- What a hunk does with a line. -/
inductive Role where
  | context
  | removed
  | added
deriving DecidableEq, Repr

/-- A line of a hunk, with its end. -/
structure HunkLine where
  role : Role
  text : DiffLine
deriving DecidableEq, Repr

/-- A range of lines as a header tells it: its first line, counted from one, and its size.
An empty range tells the line before it. -/
structure Range where
  first : Nat
  size : Nat
deriving DecidableEq, Repr

namespace Range

/-- The range of so many lines after the first `before`. -/
def after (before size : Nat) : Range := ⟨if size = 0 then before else before + 1, size⟩

/-- How many lines come before a range. -/
def before (r : Range) : Nat := if r.size = 0 then r.first else r.first - 1

@[simp] theorem before_after (n size : Nat) : (after n size).before = n := by
  unfold before after
  split <;> simp_all

end Range

structure PatchHunk where
  old : Range
  new : Range
  lines : List HunkLine
deriving DecidableEq, Repr

namespace Role

/-- The other way round, what is added goes and what is removed comes. -/
def reverse : Role → Role
  | context => context
  | removed => added
  | added => removed

@[simp] theorem reverse_eq_added {r : Role} : r.reverse = added ↔ r = removed := by
  cases r <;> decide

@[simp] theorem reverse_eq_removed {r : Role} : r.reverse = removed ↔ r = added := by
  cases r <;> decide

end Role

/-- Lines with which a hunk does the same. -/
def marked (role : Role) (texts : List DiffLine) : List HunkLine := texts.map (⟨role, ·⟩)

/-- Which of the lines are those of the old text. -/
def oldTexts (lines : List HunkLine) : List DiffLine :=
  (lines.filter (·.role ≠ .added)).map (·.text)

/-- Which of the lines are those of the new text. -/
def newTexts (lines : List HunkLine) : List DiffLine :=
  (lines.filter (·.role ≠ .removed)).map (·.text)

section
variable (lines lines' : List HunkLine) (texts : List DiffLine)

@[simp] theorem oldTexts_append :
    oldTexts (lines ++ lines') = oldTexts lines ++ oldTexts lines' := by
  simp [oldTexts]

@[simp] theorem newTexts_append :
    newTexts (lines ++ lines') = newTexts lines ++ newTexts lines' := by
  simp [newTexts]

@[simp] theorem oldTexts_context : oldTexts (marked .context texts) = texts := by
  simp [oldTexts, marked, List.filter_map, Function.comp_def]

@[simp] theorem oldTexts_removed : oldTexts (marked .removed texts) = texts := by
  simp [oldTexts, marked, List.filter_map, Function.comp_def]

@[simp] theorem oldTexts_added : oldTexts (marked .added texts) = [] := by
  simp [oldTexts, marked, List.filter_map, Function.comp_def]

@[simp] theorem newTexts_context : newTexts (marked .context texts) = texts := by
  simp [newTexts, marked, List.filter_map, Function.comp_def]

@[simp] theorem newTexts_removed : newTexts (marked .removed texts) = [] := by
  simp [newTexts, marked, List.filter_map, Function.comp_def]

@[simp] theorem newTexts_added : newTexts (marked .added texts) = texts := by
  simp [newTexts, marked, List.filter_map, Function.comp_def]

end

namespace PatchHunk

/-- The lines of the old text that a hunk speaks of. -/
def oldLines (h : PatchHunk) : List DiffLine := oldTexts h.lines

/-- The lines of the new text that a hunk speaks of. -/
def newLines (h : PatchHunk) : List DiffLine := newTexts h.lines

/-- The hunk that leads back. -/
def reverse (h : PatchHunk) : PatchHunk :=
  ⟨h.new, h.old, h.lines.map fun line => { line with role := line.role.reverse }⟩

@[simp] theorem old_reverse (h : PatchHunk) : h.reverse.old = h.new := rfl

@[simp] theorem new_reverse (h : PatchHunk) : h.reverse.new = h.old := rfl

@[simp] theorem oldLines_reverse (h : PatchHunk) : h.reverse.oldLines = h.newLines := by
  simp [oldLines, newLines, oldTexts, newTexts, reverse, List.filter_map, Function.comp_def]

@[simp] theorem newLines_reverse (h : PatchHunk) : h.reverse.newLines = h.oldLines := by
  simp [oldLines, newLines, oldTexts, newTexts, reverse, List.filter_map, Function.comp_def]

end PatchHunk

/-! Ends of a hunk -/

/-- The changed lines at the front. -/
def changedFront (lines : List HunkLine) : List HunkLine := lines.takeWhile (·.role ≠ .context)

/-- If there are changed lines at the front, some of them are of the given kind. -/
def FrontHas (role : Role) (lines : List HunkLine) : Prop :=
  changedFront lines = [] ∨ ∃ line ∈ changedFront lines, line.role = role

instance (role : Role) (lines : List HunkLine) : Decidable (FrontHas role lines) :=
  inferInstanceAs (Decidable (_ ∨ _))

/-- At both ends, a hunk that does not stop with kept lines has lines of the given kind among
the changed ones. -/
def PatchHunk.Anchored (h : PatchHunk) (role : Role) : Prop :=
  FrontHas role h.lines ∧ FrontHas role h.lines.reverse

instance (h : PatchHunk) (role : Role) : Decidable (h.Anchored role) :=
  inferInstanceAs (Decidable (_ ∧ _))

/-- A patch with lines of the given kind. -/
def HasRole (role : Role) (p : List PatchHunk) : Prop := ∃ h ∈ p, ∃ line ∈ h.lines, line.role = role

instance (role : Role) (p : List PatchHunk) : Decidable (HasRole role p) :=
  inferInstanceAs (Decidable (∃ h ∈ p, ∃ line ∈ h.lines, line.role = role))

theorem changedFront_append {front rest : List HunkLine}
    (changed : ∀ line ∈ front, line.role ≠ .context)
    (stop : ∀ line ∈ rest.head?, line.role = .context) : changedFront (front ++ rest) = front := by
  unfold changedFront
  rw [List.takeWhile_append_of_pos (by simpa using changed)]
  cases rest with
  | nil => simp
  | cons line rest => simp [stop line rfl]

/-! Application -/

/-- Applies hunks to the rest of an old text, after so many lines of both texts. -/
def applyFrom (i j : Nat) : List PatchHunk → List DiffLine → Option (List DiffLine)
  | [], rest => some rest
  | h :: hs, rest =>
    let same := rest.take (h.old.before - i)
    let rest := rest.drop (h.old.before - i)
    if h.old = .after (i + same.length) h.oldLines.length ∧
        h.new = .after (j + same.length) h.newLines.length ∧ h.oldLines <+: rest then
      (applyFrom (i + same.length + h.oldLines.length) (j + same.length + h.newLines.length) hs
        (rest.drop h.oldLines.length)).map (same ++ h.newLines ++ ·)
    else none

/-- The hunks lead from one rest of a text to the other, after so many lines of both. -/
inductive Leads : Nat → Nat → List PatchHunk → List DiffLine → List DiffLine → Prop where
  | rest {i j : Nat} {same : List DiffLine} : Leads i j [] same same
  | hunk {i j : Nat} {h : PatchHunk} {hs : List PatchHunk} {same xs ys : List DiffLine} :
    h.old = .after (i + same.length) h.oldLines.length →
    h.new = .after (j + same.length) h.newLines.length →
    Leads (i + same.length + h.oldLines.length) (j + same.length + h.newLines.length) hs xs ys →
    Leads i j (h :: hs) (same ++ h.oldLines ++ xs) (same ++ h.newLines ++ ys)

theorem Leads.reverse {i j : Nat} {hs : List PatchHunk} {xs ys : List DiffLine}
    (leads : Leads i j hs xs ys) : Leads j i (hs.map PatchHunk.reverse) ys xs := by
  induction leads with
  | rest => exact .rest
  | @hunk _ _ h _ same _ _ oldPlace newPlace _ ih =>
    have back := @Leads.hunk _ _ h.reverse _ same _ _ (by simpa using newPlace)
      (by simpa using oldPlace) (by simpa using ih)
    simpa using back

/-- Hunks are applied exactly if they lead somewhere. -/
theorem applyFrom_eq_some {i j : Nat} {hs : List PatchHunk} {xs ys : List DiffLine} :
    applyFrom i j hs xs = some ys ↔ Leads i j hs xs ys := by
  constructor
  · intro applied
    induction hs generalizing i j xs ys with
    | nil =>
      cases applied
      exact .rest
    | cons h hs ih =>
      simp only [applyFrom] at applied
      split at applied
      · next fits =>
        obtain ⟨oldPlace, newPlace, later, found⟩ := fits
        rw [← found, List.drop_left, Option.map_eq_some_iff] at applied
        obtain ⟨rest, applied, rfl⟩ := applied
        have hunk := Leads.hunk oldPlace newPlace (ih applied)
        rwa [List.append_assoc, found, List.take_append_drop] at hunk
      · cases applied
  · intro leads
    induction leads with
    | rest => rfl
    | @hunk i j h hs same xs ys oldPlace newPlace _ ih =>
      have gap : h.old.before - i = same.length := by
        rw [oldPlace, Range.before_after, Nat.add_sub_cancel_left]
      have fits : h.old = .after (i + same.length) h.oldLines.length ∧
          h.new = .after (j + same.length) h.newLines.length ∧
          h.oldLines <+: h.oldLines ++ xs :=
        ⟨oldPlace, newPlace, List.prefix_append _ _⟩
      simp only [applyFrom, gap, List.append_assoc, List.take_left, List.drop_left]
      rw [if_pos fits, ih]
      simp

/-- A patch that takes something away or adds something. -/
def Changes (p : List PatchHunk) : Prop := ∃ h ∈ p, ∃ line ∈ h.lines, line.role ≠ .context

/-- Hunks that only keep lines lead nowhere else. -/
theorem Leads.eq_of_not_changes {i j : Nat} {hs : List PatchHunk} {xs ys : List DiffLine}
    (leads : Leads i j hs xs ys) (none : ¬ Changes hs) : xs = ys := by
  induction leads with
  | rest => rfl
  | @hunk _ _ h _ _ _ _ _ _ _ ih =>
    have allContext (line : HunkLine) (member : line ∈ h.lines) : line.role = .context :=
      Decidable.byContradiction fun changed =>
        none ⟨h, List.mem_cons_self, line, member, changed⟩
    have old : h.oldLines = h.lines.map (·.text) := by
      rw [PatchHunk.oldLines, oldTexts, List.filter_eq_self.2]
      intro line member
      simp [allContext line member]
    have new : h.newLines = h.lines.map (·.text) := by
      rw [PatchHunk.newLines, newTexts, List.filter_eq_self.2]
      intro line member
      simp [allContext line member]
    have later := ih fun ⟨h', member, changes⟩ =>
      none ⟨h', List.mem_cons_of_mem _ member, changes⟩
    rw [old, new, later]

end RoutineWatch.Diff
