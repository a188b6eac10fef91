import RoutineWatch.Drift
import RoutineWatch.Proofs.Diff.Written

/-!
# The diff of a drift as a patch

Read from its lines the diff has the hunks of a patch that turns the checked-in text into the
generated one, and back. The headers of these hunks are right unless a hunk begins or ends
with lines that are all removed or all added while the diff does the other thing as well: the
place in the text that such a block has no lines in is taken from where its change stood
before it was slid along.

- `Drift.check_exact`: when two texts drift, and what the diff tells.
- `Drift.shifted_line_misplaced`: a hunk under a header that is not right.
-/
namespace RoutineWatch

namespace Diff

/-- Applies a patch to the lines of a text. -/
def applyPatch (p : List PatchHunk) (text : String) : Option String :=
  (applyFrom 0 0 p (Line.atLineFeed text.toList)).map fun lines => String.ofList lines.flatten

theorem applyPatch_of_leads {p : List PatchHunk} {text text' : String}
    (leads : Leads 0 0 p (Line.atLineFeed text.toList) (Line.atLineFeed text'.toList)) :
    applyPatch p text = some text' := by
  rw [applyPatch, applyFrom_eq_some.2 leads, Option.map_some, Line.flatten_atLineFeed,
    String.ofList_toList]

end Diff

namespace Drift
open Diff

/-- What the diff of a drift tells: `stated` are the hunks that are read from it, and `right`
the same hunks under the headers that their places in the texts ask for. -/
structure Tells (drift : Drift) (actual expected : String) (stated right : List PatchHunk) :
    Prop where
  lines : drift.lines =
    "--- actual\n".toList :: "+++ expected\n".toList :: texts (stated.flatMap PatchHunk.entries)
  reads : readHunks (drift.lines.drop 2) = some stated
  changes : Changes stated
  heads : List.Forall₂ (Heads right) stated right
  applies : applyPatch right actual = some expected
  reverts : applyPatch (right.map PatchHunk.reverse) expected = some actual

theorem changes_of_heads {p stated right : List PatchHunk}
    (heads : List.Forall₂ (Heads p) stated right) (changes : Changes right) : Changes stated := by
  obtain ⟨h, member, line, inHunk, changed⟩ := changes
  obtain ⟨h', member', head⟩ := exists_of_mem_left heads.flip member
  exact ⟨h', member', line, head.lines ▸ inHunk, changed⟩

theorem lines_unified {actual expected : String} (pairsActual : Line.PairsReturns actual.toList)
    (pairsExpected : Line.PairsReturns expected.toList)
    (differ : statedHunks actual expected ≠ []) :
    lines ⟨unified "actual" "expected" actual expected⟩ =
      "--- actual\n".toList :: "+++ expected\n".toList ::
        texts ((statedHunks actual expected).flatMap PatchHunk.entries) := by
  have names : texts (fileEntries "actual" "expected") =
      ["--- actual\n".toList, "+++ expected\n".toList] := by decide
  rw [lines, unified_lines pairsActual pairsExpected (by decide) (by decide) differ, texts_append,
    names, List.cons_append, List.cons_append, List.nil_append]

theorem tells_of_check {actual expected : String} {drift : Drift}
    (pairsActual : Line.PairsReturns actual.toList)
    (pairsExpected : Line.PairsReturns expected.toList)
    (checked : check actual expected = some drift) :
    ∃ right, Tells drift actual expected (statedHunks actual expected) right := by
  unfold check at checked
  split at checked
  · cases checked
  · next differ =>
    have drift_eq := Option.some.inj checked
    subst drift_eq
    obtain ⟨right, heads, leads⟩ := exists_patch (linesOf actual) (linesOf expected)
    have applies : applyPatch right actual = some expected := applyPatch_of_leads leads
    have reverts : applyPatch (right.map PatchHunk.reverse) expected = some actual :=
      applyPatch_of_leads leads.reverse
    have changes : Changes right := by
      by_contra none
      refine differ (String.ext ?_)
      rw [← Line.flatten_atLineFeed actual.toList, ← Line.flatten_atLineFeed expected.toList]
      exact congrArg List.flatten (leads.eq_of_not_changes none)
    have stated := changes_of_heads heads changes
    have some : statedHunks actual expected ≠ [] := by
      obtain ⟨h, member, _⟩ := stated
      exact List.ne_nil_of_mem member
    have lines := lines_unified pairsActual pairsExpected some
    refine ⟨right, lines, ?_, stated, heads, applies, reverts⟩
    rw [lines, List.drop_succ_cons, List.drop_succ_cons, List.drop_zero]
    exact readHunks_entries _

theorem check_eq_none {actual expected : String} :
    check actual expected = none ↔ actual = expected := by
  unfold check
  split
  · next same => exact iff_of_true rfl same
  · next differ => exact iff_of_false (Option.some_ne_none _) differ

/-- A hunk whose header is the right one: at both ends it has lines of either text, or no
line of that text changes in the patch. -/
def Firm (p : List PatchHunk) (h : PatchHunk) : Prop :=
  (h.Anchored .removed ∨ ¬ HasRole .removed p) ∧ (h.Anchored .added ∨ ¬ HasRole .added p)

instance (p : List PatchHunk) (h : PatchHunk) : Decidable (Firm p h) :=
  inferInstanceAs (Decidable (_ ∧ _))

theorem eq_of_firm {p stated right : List PatchHunk}
    (heads : List.Forall₂ (Heads p) stated right) (firm : ∀ h ∈ right, Firm p h) :
    stated = right := by
  induction heads with
  | nil => rfl
  | @cons s r _ _ head _ ih =>
    obtain ⟨here, later⟩ := List.forall_mem_cons.1 firm
    have same : s = r := by
      obtain ⟨lines, old, new⟩ := head
      obtain ⟨firmOld, firmNew⟩ := here
      cases s
      cases r
      simp_all
    rw [same, ih later]

/-- Two texts pass the check exactly if they are equal. Otherwise the diff names them, and its
hunks change something and are those of a patch from the one to the other and back. They have
the headers of that patch as well wherever a hunk has lines of the text in question at its
ends, or no line of that text changes; so if all of them are firm, the diff is that patch. -/
theorem check_exact {actual expected : String} (pairsActual : Line.PairsReturns actual.toList)
    (pairsExpected : Line.PairsReturns expected.toList) :
    (check actual expected = none ↔ actual = expected) ∧
      ∀ drift, check actual expected = some drift →
        ∃ stated right, Tells drift actual expected stated right ∧
          ((∀ h ∈ right, Firm right h) → stated = right) := by
  refine ⟨check_eq_none, fun drift checked => ?_⟩
  obtain ⟨right, tells⟩ := tells_of_check pairsActual pairsExpected checked
  exact ⟨_, right, tells, eq_of_firm tells.heads⟩

/-- A text with a line less. -/
theorem dropped_line_told :
    Line.PairsReturns "a\nb\n".toList ∧ Line.PairsReturns "b\n".toList ∧
      ∃ drift, check "a\nb\n" "b\n" = some drift ∧
        ∃ stated right, Tells drift "a\nb\n" "b\n" stated right := by
  have pairsActual : Line.PairsReturns "a\nb\n".toList :=
    Line.pairsReturns_of_not_mem (by decide)
  have pairsExpected : Line.PairsReturns "b\n".toList := Line.pairsReturns_of_not_mem (by decide)
  have checked : check "a\nb\n" "b\n" = some ⟨unified "actual" "expected" "a\nb\n" "b\n"⟩ :=
    if_neg (by decide)
  obtain ⟨stated, right, tells, _⟩ := (check_exact pairsActual pairsExpected).2 _ checked
  exact ⟨pairsActual, pairsExpected, _, checked, stated, right, tells⟩

/-- Where a removed line slides past an added one, the hunk is written under a header that
counts a line too few in each text and places the new ones too far down; read as it is
written, it does not apply. -/
theorem shifted_line_misplaced :
    (check "a\nb\n" "b\nb\n").map Drift.diff =
        some "--- actual\n+++ expected\n@@ -1 +2 @@\n-a\n b\n+b\n" ∧
      ∃ h, readHunks ["@@ -1 +2 @@\n".toList, "-a\n".toList, " b\n".toList, "+b\n".toList] =
          some [h] ∧
        h.old.size ≠ h.oldLines.length ∧ h.new.size ≠ h.newLines.length ∧
        applyPatch [h] "a\nb\n" = none ∧ applyPatch [h.reverse] "b\nb\n" = none := by
  refine ⟨by decide +kernel, ⟨⟨1, 1⟩, ⟨2, 1⟩, [⟨.removed, ['a', '\n']⟩, ⟨.context, ['b', '\n']⟩,
    ⟨.added, ['b', '\n']⟩]⟩, ?_⟩
  decide +kernel

end Drift

end RoutineWatch
