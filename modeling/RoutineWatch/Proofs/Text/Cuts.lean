import Mathlib.Data.List.Basic

/-!
# A row cut at a mark

The parts have no mark, and after the first one a part is empty exactly where two marks stand
side by side or one stands at the end.

- `Cuts.nil_mem_tail_splitOn_iff`: where a part is empty.
-/
namespace RoutineWatch.Cuts

section
variable {α : Type} [DecidableEq α] {mark : α}

/-- What stands before the first cut goes to the first part. -/
theorem splitOn_append_of_not_mem {front : List α} (free : mark ∉ front) (rest : List α) :
    (front ++ rest).splitOn mark = (rest.splitOn mark).modifyHead (front ++ ·) := by
  induction front with
  | nil =>
    rw [List.nil_append]
    exact (congrFun List.modifyHead_id (rest.splitOn mark)).symm
  | cons a front ih =>
    have other : a ≠ mark := fun same => free (same ▸ List.mem_cons_self)
    have later : mark ∉ front := fun member => free (List.mem_cons_of_mem a member)
    rw [List.cons_append, List.splitOn_cons_eq_if_modifyHead, if_neg (by simpa using other),
      ih later, List.modifyHead_modifyHead]
    rfl

/-- No part has the mark. -/
theorem not_mem_of_mem_splitOn {row part : List α} (cut : part ∈ row.splitOn mark) :
    mark ∉ part := by
  induction row generalizing part with
  | nil =>
    rw [List.splitOn_nil, List.mem_singleton] at cut
    simp [cut]
  | cons a row ih =>
    rw [List.splitOn_cons_eq_if_modifyHead] at cut
    split at cut
    · cases cut with
      | head => exact List.not_mem_nil
      | tail _ later => exact ih later
    · next other =>
      cases parts : row.splitOn mark with
      | nil => exact absurd parts (List.splitOn_ne_nil _ _)
      | cons first others =>
        rw [parts] at cut ih
        cases cut with
        | head =>
          intro member
          rcases List.mem_cons.1 member with same | inside
          · exact other (by simp [same])
          · exact ih List.mem_cons_self inside
        | tail _ later => exact ih (List.mem_cons_of_mem first later)

theorem mem_tail_of_cut {front : List α} {parts : List (List α)} {part : List α}
    (member : part ∈ parts) : part ∈ (front.splitOn mark ++ parts).tail := by
  cases cut : front.splitOn mark with
  | nil => exact absurd cut (List.splitOn_ne_nil _ _)
  | cons first others => exact List.mem_append_right others member

/-- After the first part, one is empty where two marks stand side by side or one at the end. -/
theorem nil_mem_tail_splitOn_iff {row : List α} :
    [] ∈ (row.splitOn mark).tail ↔ row.getLast? = some mark ∨ [mark, mark] <:+: row := by
  constructor
  · intro empty
    induction row with
    | nil => simp at empty
    | cons a row ih =>
      have later : [] ∈ (row.splitOn mark).tail →
          (a :: row).getLast? = some mark ∨ [mark, mark] <:+: a :: row := by
        intro empty
        apply (ih empty).imp
        · intro last
          rw [List.getLast?_cons, last]
          rfl
        · intro twice
          exact twice.trans (List.suffix_cons a row).isInfix
      rw [List.splitOn_cons_eq_if_modifyHead] at empty
      split at empty
      · next same =>
        obtain rfl : a = mark := by simpa using same
        cases row with
        | nil => exact Or.inl rfl
        | cons b row =>
          by_cases again : b = a
          · subst again
            exact Or.inr ⟨[], row, rfl⟩
          · apply later
            rw [List.splitOn_cons_eq_if_modifyHead, if_neg (by simpa using again)] at empty ⊢
            cases parts : row.splitOn a with
            | nil => exact absurd parts (List.splitOn_ne_nil _ _)
            | cons first others =>
              rw [parts] at empty
              simpa using empty
      · apply later
        cases parts : row.splitOn mark with
        | nil => exact absurd parts (List.splitOn_ne_nil _ _)
        | cons first others =>
          rw [parts] at empty
          simpa using empty
  · intro marks
    rcases marks with last | ⟨front, rest, rfl⟩
    · obtain ⟨front, rfl⟩ := List.getLast?_eq_some_iff.1 last
      rw [List.splitOn_append_cons_self]
      apply mem_tail_of_cut
      simp
    · rw [List.append_assoc, List.cons_append, List.cons_append, List.splitOn_append_cons_self]
      apply mem_tail_of_cut
      rw [List.nil_append, List.splitOn_cons_eq_if_modifyHead, if_pos (by simp)]
      exact List.mem_cons_self

end

end RoutineWatch.Cuts
