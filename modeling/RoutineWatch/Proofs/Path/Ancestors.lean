import Mathlib.Data.List.Infix
import Mathlib.Data.List.Induction
import Mathlib.Data.List.TakeWhile
import RoutineWatch.Proofs.Path.Joining

/-!
# The paths above an absolute one

Going up takes off the last of the parts that lead somewhere, and nothing else, so above a
path there is one path for each front of its parts, and the nearer ones are the longer ones.

- `Path.ancestors_of_absolute`: what is above an absolute path.
- `Path.ancestors_descend`: the nearer of two has the parts of the other and more.
-/
namespace RoutineWatch.Path

theorem parts_append_slash (before after : Bytes) :
    (⟨before ++ slash :: after⟩ : Path).parts =
      (⟨before⟩ : Path).parts ++ (⟨after⟩ : Path).parts := by
  simp only [parts_eq_named, named_append_slash, List.filter_append]

theorem parts_append_single_slash (before : Bytes) :
    (⟨before ++ [slash]⟩ : Path).parts = (⟨before⟩ : Path).parts := by
  rw [parts_append_slash]
  exact List.append_nil _

/-- What is idle at the end of a path is none of its parts. -/
theorem parts_dropIdle (row : Bytes) :
    (⟨(dropIdle row).reverse⟩ : Path).parts = (⟨row.reverse⟩ : Path).parts := by
  fun_induction dropIdle row with
  | case1 => rfl
  | case2 row ih => rw [ih, List.reverse_cons, parts_append_single_slash]
  | case3 b row notSlash idle ih =>
    simp only [Bool.and_eq_true, decide_eq_true_eq] at idle
    obtain ⟨rfl, first⟩ := idle
    obtain ⟨rest, rfl⟩ := List.head?_eq_some_iff.1 first
    have single : (⟨[46]⟩ : Path).parts = [] := by decide
    have turned : (46 :: slash :: rest).reverse = rest.reverse ++ slash :: [46] := by simp
    rw [ih, List.reverse_cons, parts_append_single_slash, turned, parts_append_slash, single,
      List.append_nil]
  | case4 => rfl

/-- Where idle parts are dropped, what is at the end leads somewhere. -/
theorem cons_dropIdle {row rest : Bytes} {b : UInt8} (left : dropIdle row = b :: rest) :
    b ≠ slash ∧ (b = 46 → rest.head? ≠ some slash) := by
  fun_induction dropIdle row with
  | case1 => cases left
  | case2 row ih => exact ih left
  | case3 c row _ _ ih => exact ih left
  | case4 c row notSlash notIdle =>
    cases left
    exact ⟨notSlash, by simpa using notIdle⟩

theorem trimEnd_parts (p : Path) : p.trimEnd.parts = p.parts := by
  have kept := parts_dropIdle p.bytes.reverse
  rw [List.reverse_reverse] at kept
  unfold trimEnd
  dsimp only
  split
  · next root =>
    simp only [Bool.and_eq_true, decide_eq_true_eq] at root
    rw [root.1] at kept
    exact kept
  · exact kept

/-- Of an absolute path an absolute one is left, if any. -/
theorem isAbsolute_dropIdle {p : Path} (absolute : p.isAbsolute = true)
    (begun : (dropIdle p.bytes.reverse).reverse ≠ []) :
    (⟨(dropIdle p.bytes.reverse).reverse⟩ : Path).isAbsolute = true := by
  rcases dropIdle_reverse p.bytes with same | ⟨dropped, whole⟩
  · rw [same]
    exact absolute
  · rw [← isAbsolute_of_prefix begun, ← whole]
    exact absolute

theorem isAbsolute_trimEnd {p : Path} (absolute : p.isAbsolute = true) :
    p.trimEnd.isAbsolute = true := by
  unfold trimEnd
  dsimp only
  split
  · rfl
  · next named => exact isAbsolute_dropIdle absolute (by simpa [absolute] using named)

/-- A row of bytes that has a slash, cut at its last one. -/
theorem last_slash {row : Bytes} (some : slash ∈ row) :
    ∃ before name, row = before ++ slash :: name ∧ slash ∉ name ∧
      (row.reverse.dropWhile (· ≠ slash)).reverse = before ++ [slash] := by
  have whole := List.takeWhile_append_dropWhile (p := (· ≠ slash)) (l := row.reverse)
  have free : slash ∉ row.reverse.takeWhile (· ≠ slash) := by
    intro member
    simpa using List.mem_takeWhile_imp member
  have ends := List.head?_dropWhile_not (· ≠ slash) row.reverse
  cases left : row.reverse.dropWhile (· ≠ slash) with
  | nil =>
    rw [left, List.append_nil] at whole
    rw [whole] at free
    exact absurd (List.mem_reverse.2 some) free
  | cons b rest =>
    rw [left] at ends whole
    have separates : b = slash := by simpa using ends
    refine ⟨rest.reverse, (row.reverse.takeWhile (· ≠ slash)).reverse, ?_, ?_, ?_⟩
    · have turned := congrArg List.reverse whole
      rw [separates] at turned
      simpa using turned.symm
    · simpa using free
    · rw [separates]
      simp

/-- An absolute path either names nothing, and then it has no parent, or the parent has its parts
but for the last one. -/
theorem parent?_cases {p : Path} (absolute : p.isAbsolute = true) :
    (p.parent? = none ∧ p.parts = []) ∨
      ∃ q name, p.parent? = some q ∧ q.isAbsolute = true ∧ p.parts = q.parts ++ [name] := by
  have same := parts_dropIdle p.bytes.reverse
  have absolute' := isAbsolute_dropIdle absolute
  have ends := @cons_dropIdle p.bytes.reverse
  rw [List.reverse_reverse] at same
  unfold parent?
  dsimp only
  generalize dropIdle p.bytes.reverse = row at same absolute' ends
  by_cases none : row.reverse = []
  · left
    rw [if_pos none]
    rw [none] at same
    exact ⟨rfl, same.symm⟩
  · right
    rw [if_neg none]
    have begins : row.reverse.head? = some slash := by simpa [isAbsolute] using absolute' none
    obtain ⟨before, name, whole, free, cut⟩ := last_slash (List.mem_of_mem_head? begins)
    have turned : row = name.reverse ++ slash :: before.reverse := by
      rw [← List.reverse_reverse row, whole]
      simp
    -- The end of the row is no slash and no idle dot, so the last name leads somewhere.
    have proper : name ≠ [] ∧ name ≠ dot := by
      constructor
      · intro empty
        rw [empty] at turned
        exact (ends turned).1 rfl
      · intro single
        rw [single] at turned
        exact (ends turned).2 rfl rfl
    have last : (⟨name⟩ : Path).parts = [name] := by
      unfold parts
      rw [pieces_eq_splitOn, List.splitOn_eq_singleton free]
      simp [proper]
    refine ⟨_, name, rfl, ?_, ?_⟩
    · apply isAbsolute_trimEnd
      rw [cut]
      cases before with
      | nil => rfl
      | cons b before =>
        rw [whole] at begins
        simpa [isAbsolute] using begins
    · rw [trimEnd_parts, cut, parts_append_single_slash, ← last, ← parts_append_slash, ← whole]
      exact same.symm

/-! All that is above -/

theorem ancestors_of_parent {p q : Path} (above : p.parent? = some q) :
    p.ancestors = p :: q.ancestors := by
  rw [ancestors]
  split
  · next other found =>
    cases above.symm.trans found
    rfl
  · next none =>
    rw [none] at above
    cases above

theorem ancestors_of_top {p : Path} (top : p.parent? = none) : p.ancestors = [p] := by
  rw [ancestors]
  split
  · next other found =>
    rw [top] at found
    cases found
  · rfl

/-- What is above an absolute path: one absolute path for each front of its parts, the longest
one first. -/
theorem ancestors_of_absolute {p : Path} (absolute : p.isAbsolute = true) :
    p.ancestors.map parts = p.parts.inits.reverse ∧ ∀ a ∈ p.ancestors, a.isAbsolute = true := by
  generalize whole : p.parts = row
  induction row using List.reverseRecOn generalizing p with
  | nil =>
    rcases parent?_cases absolute with ⟨top, _⟩ | ⟨q, name, _, _, longer⟩
    · rw [ancestors_of_top top]
      simp [whole, absolute]
    · rw [longer] at whole
      exact absurd whole (by simp)
  | append_singleton front last ih =>
    rcases parent?_cases absolute with ⟨_, empty⟩ | ⟨q, name, above, absolute', longer⟩
    · rw [empty] at whole
      exact absurd whole.symm (by simp)
    · rw [longer] at whole
      obtain ⟨rest, _⟩ := List.append_inj' whole rfl
      obtain ⟨fronts, all⟩ := ih absolute' rest
      rw [ancestors_of_parent above, List.map_cons, fronts, longer, whole]
      exact ⟨by simp [List.inits_append], List.forall_mem_cons.2 ⟨absolute, all⟩⟩

theorem prefix_of_mem_ancestors {p a : Path} (absolute : p.isAbsolute = true)
    (above : a ∈ p.ancestors) : a.parts <+: p.parts := by
  have front : a.parts ∈ p.ancestors.map parts := List.mem_map_of_mem above
  rw [(ancestors_of_absolute absolute).1, List.mem_reverse, List.mem_inits] at front
  exact front

/-- The nearer of two paths above an absolute one has the parts of the other and more. -/
theorem ancestors_descend {p : Path} (absolute : p.isAbsolute = true) :
    p.ancestors.Pairwise fun a b => b.parts <+: a.parts ∧ b.parts ≠ a.parts := by
  generalize whole : p.parts = row
  induction row using List.reverseRecOn generalizing p with
  | nil =>
    rcases parent?_cases absolute with ⟨top, _⟩ | ⟨q, name, _, _, longer⟩
    · rw [ancestors_of_top top]
      exact List.pairwise_singleton _ _
    · rw [longer] at whole
      exact absurd whole (by simp)
  | append_singleton front last ih =>
    rcases parent?_cases absolute with ⟨_, empty⟩ | ⟨q, name, above, absolute', longer⟩
    · rw [empty] at whole
      exact absurd whole.symm (by simp)
    · rw [longer] at whole
      obtain ⟨rest, _⟩ := List.append_inj' whole rfl
      rw [ancestors_of_parent above]
      refine List.pairwise_cons.2 ⟨?_, ih absolute' rest⟩
      intro a higher
      have shorter := prefix_of_mem_ancestors absolute' higher
      rw [longer]
      refine ⟨shorter.trans (List.prefix_append _ _), ?_⟩
      intro same
      have lengths := shorter.length_le
      rw [same, List.length_append, List.length_singleton] at lengths
      omega

end RoutineWatch.Path
