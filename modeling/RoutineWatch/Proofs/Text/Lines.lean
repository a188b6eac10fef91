import RoutineWatch.Text.Basic

/-!
# Lines of a text

What a line can hold, and that lines put after each other are cut where they were put
together. Where every carriage return stands before a line feed, the two ways to cut a text
are the same.

- `Line.linesOf_iff`: a text has one row of lines, the one it is cut into.
- `Line.atAnyEnd_eq`: when the two ways are the same.
-/
namespace RoutineWatch.Line

theorem atLineFeed_line {line : List Char} (single : '\n' ∉ line) (rest : List Char) :
    atLineFeed (line ++ '\n' :: rest) = (line ++ ['\n']) :: atLineFeed rest := by
  induction line with
  | nil => simp [atLineFeed]
  | cons c line ih =>
    rw [List.mem_cons, not_or] at single
    rw [List.cons_append, atLineFeed, if_neg (Ne.symm single.1), ih single.2]
    rfl

/-- A line that ends in a line feed, its only one. -/
def Ended (line : List Char) : Prop := ∃ body, '\n' ∉ body ∧ line = body ++ ['\n']

/-- Lines that were put after each other are told apart. -/
theorem atLineFeed_flatten {lines : List (List Char)} (ended : ∀ line ∈ lines, Ended line) :
    atLineFeed lines.flatten = lines := by
  induction lines with
  | nil => rfl
  | cons line lines ih =>
    obtain ⟨⟨body, single, rfl⟩, others⟩ := List.forall_mem_cons.1 ended
    rw [List.flatten_cons, List.append_assoc, List.singleton_append, atLineFeed_line single,
      ih others]

/-- The lines of a text. Each has a line feed at its end and no other one; only the last may
have none at all, and then it is not empty. -/
inductive LinesOf : List Char → List (List Char) → Prop where
  | none : LinesOf [] []
  | unended {line : List Char} (filled : line ≠ []) (single : '\n' ∉ line) : LinesOf line [line]
  | ended {body rest : List Char} {lines : List (List Char)} (single : '\n' ∉ body)
      (later : LinesOf rest lines) :
      LinesOf (body ++ '\n' :: rest) ((body ++ ['\n']) :: lines)

/-- A character in front of a text is in front of its first line. -/
theorem LinesOf.onto {c : Char} {cs : List Char} {lines : List (List Char)} (other : c ≠ '\n')
    (cut : LinesOf cs lines) : LinesOf (c :: cs) (Line.onto c lines) := by
  have add : ∀ {text : List Char}, '\n' ∉ text → '\n' ∉ c :: text := by
    intro text single
    simpa [single] using Ne.symm other
  cases cut with
  | none => exact .unended (List.cons_ne_nil c []) (add List.not_mem_nil)
  | unended filled single => exact .unended (List.cons_ne_nil c cs) (add single)
  | ended single later => exact .ended (add single) later

theorem linesOf_atLineFeed (cs : List Char) : LinesOf cs (atLineFeed cs) := by
  induction cs with
  | nil => exact .none
  | cons c cs ih =>
    rw [atLineFeed]
    split
    · next feed =>
      have single : '\n' ∉ ([] : List Char) := List.not_mem_nil
      rw [feed]
      exact .ended single ih
    · next other => exact ih.onto other

/-- A text has one row of lines, the one it is cut into. -/
theorem linesOf_iff {cs : List Char} {lines : List (List Char)} :
    LinesOf cs lines ↔ lines = atLineFeed cs := by
  constructor
  · intro cut
    induction cut with
    | none => rfl
    | @unended line filled single =>
      have whole := linesOf_atLineFeed line
      generalize atLineFeed line = lines at whole
      cases whole with
      | none => exact absurd rfl filled
      | unended => rfl
      | ended => exact absurd (List.mem_append_right _ List.mem_cons_self) single
    | ended single _ ih => rw [atLineFeed_line single, ih]
  · intro same
    rw [same]
    exact linesOf_atLineFeed cs

/-! Carriage returns -/

/-- Every carriage return stands before a line feed. -/
def PairsReturns (cs : List Char) : Prop :=
  ∀ before after, cs = before ++ '\r' :: after → after.head? = some '\n'

theorem PairsReturns.tail {c : Char} {cs : List Char} (pairs : PairsReturns (c :: cs)) :
    PairsReturns cs := by
  intro before after split
  exact pairs (c :: before) after (congrArg (c :: ·) split)

theorem PairsReturns.head {cs : List Char} (pairs : PairsReturns ('\r' :: cs)) :
    cs.head? = some '\n' :=
  pairs [] cs rfl

theorem pairsReturns_of_not_mem {cs : List Char} (none : '\r' ∉ cs) : PairsReturns cs := by
  rintro before after rfl
  exact absurd (List.mem_append_right before List.mem_cons_self) none

theorem atAnyEnd_eq {cs : List Char} (pairs : PairsReturns cs) : atAnyEnd cs = atLineFeed cs := by
  fun_induction atAnyEnd cs with
  | case1 => rfl
  | case2 cs ih =>
    rw [ih pairs.tail.tail]
    simp [atLineFeed, onto]
  | case3 c cs notPair ended ih =>
    have feed : c = '\n' := by
      obtain feed | carriage := by simpa using ended
      · exact feed
      · subst carriage
        obtain ⟨rest, rfl⟩ := List.head?_eq_some_iff.1 pairs.head
        exact absurd rfl (notPair rest rfl)
    rw [ih pairs.tail, atLineFeed, if_pos feed]
  | case4 c cs notPair open_ ih =>
    have other : c ≠ '\n' := by
      rintro rfl
      simp at open_
    rw [ih pairs.tail, atLineFeed, if_neg other]

/-- What the lines of a text are like if it pairs its returns: the last one may have no end,
and then it does not stop after a carriage return either. -/
inductive Proper : List Char → Prop where
  | ended {line : List Char} : Ended line → Proper line
  | unended {line : List Char} : line ≠ [] → '\n' ∉ line → line.getLast? ≠ some '\r' → Proper line

theorem atLineFeed_eq_nil {cs : List Char} (none : atLineFeed cs = []) : cs = [] := by
  rw [← flatten_atLineFeed cs, none, List.flatten_nil]

theorem proper_of_mem_atLineFeed {cs : List Char} (pairs : PairsReturns cs) :
    ∀ line ∈ atLineFeed cs, Proper line := by
  induction cs with
  | nil => simp [atLineFeed]
  | cons c cs ih =>
    have later := ih pairs.tail
    unfold atLineFeed
    split
    · next feed =>
      exact List.forall_mem_cons.2 ⟨.ended ⟨[], by simp, by rw [feed]; rfl⟩, later⟩
    · next other =>
      cases lines : atLineFeed cs with
      | nil =>
        cases atLineFeed_eq_nil lines
        have last : [c].getLast? ≠ some '\r' := by
          intro carriage
          cases carriage
          cases pairs.head
        exact List.forall_mem_cons.2
          ⟨.unended (by simp) (by simpa using Ne.symm other) last, by simp⟩
      | cons line rest =>
        rw [lines] at later
        obtain ⟨first, others⟩ := List.forall_mem_cons.1 later
        refine List.forall_mem_cons.2 ⟨?_, others⟩
        cases first with
        | ended ended =>
          obtain ⟨body, single, rfl⟩ := ended
          exact .ended ⟨c :: body, by simpa [single] using Ne.symm other, rfl⟩
        | unended filled single last =>
          refine .unended (by simp) (by simpa [single] using Ne.symm other) ?_
          rwa [List.getLast?_cons_of_ne_nil filled]

/-- A line that has no end does not stop after a carriage return. -/
theorem Proper.isEnded_iff {line : List Char} (proper : Proper line) :
    isEnded line = true ↔ line.getLast? = some '\n' := by
  cases proper with
  | ended ended =>
    obtain ⟨body, _, rfl⟩ := ended
    simp [isEnded]
  | unended filled single last =>
    have stop := List.getLast?_eq_some_getLast filled
    have other : line.getLast filled ≠ '\n' := fun feed => single (feed ▸ List.getLast_mem filled)
    rw [stop] at last ⊢
    simp_all [isEnded]

theorem Proper.ended_of_feed {line : List Char} (proper : Proper line)
    (feed : line.getLast? = some '\n') : Ended line := by
  cases proper with
  | ended ended => exact ended
  | unended filled single last => exact absurd (List.mem_of_getLast? feed) single

theorem Proper.not_mem {line : List Char} (proper : Proper line)
    (other : line.getLast? ≠ some '\n') : '\n' ∉ line := by
  cases proper with
  | ended ended =>
    obtain ⟨body, _, rfl⟩ := ended
    exact absurd (by simp) other
  | unended filled single last => exact single

end RoutineWatch.Line
