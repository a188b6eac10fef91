import Mathlib.Data.List.Basic
import RoutineWatch.FileTree.Walk

/-!
# Parts of a path and of the path above it

The bytes of a path cut at its slashes, and what is idle at its end: slashes, and dots behind
them. What is dropped there names nothing, and a path without a parent names nothing at all.

- `Path.pieces_append_slash`: a slash separates the pieces before it from those after it.
- `Path.dots_of_dropIdle`: what is dropped as idle names dots only.
- `Path.dots_of_no_parent`: a path without a parent is the root's, or empty.
- `Path.steps_eq`: the steps of a path are its named pieces.
-/
namespace RoutineWatch.Path

theorem pieces_ne_nil (bytes : Bytes) : pieces bytes ≠ [] := by
  cases bytes with
  | nil => simp [pieces]
  | cons b bytes =>
    rw [pieces]
    split
    · simp
    · split <;> simp

/-- A slash separates the pieces before it from those after it. -/
theorem pieces_append_slash (before after : Bytes) :
    pieces (before ++ slash :: after) = pieces before ++ pieces after := by
  induction before with
  | nil => simp [pieces]
  | cons b before ih =>
    rw [List.cons_append, pieces, pieces, ih]
    by_cases separates : b = slash
    · rw [if_pos separates, if_pos separates, List.cons_append]
    · rw [if_neg separates, if_neg separates]
      cases parts : pieces before with
      | nil => exact absurd parts (pieces_ne_nil before)
      | cons part parts => rfl

/-- The pieces that are not empty. -/
abbrev named (bytes : Bytes) : List Bytes := (pieces bytes).filter (· ≠ [])

theorem named_append_slash (before after : Bytes) :
    named (before ++ slash :: after) = named before ++ named after := by
  rw [named, pieces_append_slash, List.filter_append]

/-! Idle parts at the end -/

/-- What is dropped from a reversed path ends with a slash. -/
theorem dropIdle_spec (bytes : Bytes) :
    dropIdle bytes = bytes ∨ ∃ dropped, bytes = dropped ++ slash :: dropIdle bytes := by
  fun_induction dropIdle bytes with
  | case1 => exact Or.inl rfl
  | case2 bytes ih =>
    rcases ih with same | ⟨dropped, whole⟩
    · exact Or.inr ⟨[], by rw [same]; rfl⟩
    · exact Or.inr ⟨slash :: dropped, congrArg (slash :: ·) whole⟩
  | case3 b bytes notSlash idle ih =>
    simp only [Bool.and_eq_true, decide_eq_true_eq] at idle
    rcases ih with same | ⟨dropped, whole⟩
    · have head := head?_dropIdle bytes
      rw [same] at head
      exact absurd idle.2 head
    · exact Or.inr ⟨b :: dropped, congrArg (b :: ·) whole⟩
  | case4 => exact Or.inl rfl

/-- A path without its idle end, and the end, which starts with a slash. -/
theorem dropIdle_reverse (bytes : Bytes) :
    (dropIdle bytes.reverse).reverse = bytes ∨
      ∃ dropped, bytes = (dropIdle bytes.reverse).reverse ++ slash :: dropped := by
  rcases dropIdle_spec bytes.reverse with same | ⟨dropped, whole⟩
  · exact Or.inl (by rw [same, List.reverse_reverse])
  · refine Or.inr ⟨dropped.reverse, ?_⟩
    have turned := congrArg List.reverse whole
    simpa using turned

/-- What is dropped as idle names dots only. -/
theorem dots_of_dropIdle {bytes : Bytes} (idle : dropIdle bytes = []) :
    ∀ part ∈ named bytes.reverse, part = dot := by
  fun_induction dropIdle bytes with
  | case1 => simp [named, pieces]
  | case2 bytes ih =>
    rw [List.reverse_cons, named_append_slash]
    simpa [pieces] using ih idle
  | case3 b bytes notSlash dotted ih =>
    simp only [Bool.and_eq_true, decide_eq_true_eq] at dotted
    obtain ⟨rfl, first⟩ := dotted
    obtain ⟨rest, rfl⟩ := List.head?_eq_some_iff.1 first
    have before := ih idle
    rw [List.reverse_cons, named_append_slash] at before
    have turned : (46 :: slash :: rest).reverse = rest.reverse ++ slash :: [46] := by simp
    have last : named [46] = [dot] := rfl
    rw [turned, named_append_slash, last]
    intro part member
    rcases List.mem_append.1 member with member | member
    · exact before part (List.mem_append_left _ member)
    · exact List.mem_singleton.1 member
  | case4 => cases idle

/-- A path without a parent is the root's, or empty. -/
theorem dots_of_no_parent {p : Path} (top : p.parent? = none) (begun : p.bytes ≠ []) :
    p.isAbsolute = true ∧ ∀ part ∈ named p.bytes, part = dot := by
  have idle : dropIdle p.bytes.reverse = [] := by
    unfold parent? at top
    dsimp only at top
    split at top
    · next none => exact List.reverse_eq_nil_iff.1 none
    · cases top
  constructor
  · rcases dropIdle_reverse p.bytes with same | ⟨dropped, whole⟩
    · rw [idle] at same
      exact absurd same.symm begun
    · rw [idle] at whole
      rw [isAbsolute, whole]
      rfl
  · simpa using dots_of_dropIdle idle

theorem isAbsolute_of_prefix {before after : Bytes} (begun : before ≠ []) :
    (⟨before ++ after⟩ : Path).isAbsolute = (⟨before⟩ : Path).isAbsolute := by
  cases before with
  | nil => exact absurd rfl begun
  | cons b before => rfl

/-- The steps of a path are its named pieces, and a dot for a slash at the end. -/
theorem steps_eq (p : Path) :
    FileTree.steps p =
      if named p.bytes ≠ [] ∧ p.bytes.getLast? = some slash then named p.bytes ++ [dot]
      else named p.bytes := by
  unfold FileTree.steps
  simp only [Bool.and_eq_true, decide_eq_true_eq]

end RoutineWatch.Path
