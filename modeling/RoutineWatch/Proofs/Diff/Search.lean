import RoutineWatch.Proofs.Diff.Frontier

/-!
# The script that the search finds

The script covers the window, wherever the window is cut: kept lines at its ends, and between
them either two scripts for its parts or one that replaces everything.

- `Diff.search_covers`: the script of a window covers it.
-/
namespace RoutineWatch.Diff

section
variable {old new : Lines}

@[simp] theorem oldSpan_step_keep (i j n : Nat) :
    (steps old new).oldSpan (step .keep i j n) = n := by
  unfold step
  split
  · next none => exact none.symm
  · rfl

@[simp] theorem newSpan_step_keep (i j n : Nat) :
    (steps old new).newSpan (step .keep i j n) = n := by
  unfold step
  split
  · next none => exact none.symm
  · rfl

theorem lies_step_keep {i j n : Nat} (agree : Agree old new i j n) :
    (steps old new).Lies i j (step .keep i j n) := by
  unfold step
  split
  · trivial
  · next some => exact ⟨Edit.stands_keep.2 ⟨Nat.pos_of_ne_zero some, rfl, rfl, agree⟩, trivial⟩

theorem covers_keep {i j n : Nat} (agree : Agree old new i j n) :
    (steps old new).Covers i j n n (step .keep i j n) :=
  ⟨lies_step_keep agree, oldSpan_step_keep i j n, newSpan_step_keep i j n⟩

theorem covers_delete (old new : Lines) (i j k n : Nat) :
    (steps old new).Covers i j n 0 (step .delete i k n) := by
  unfold step
  split
  · next none => exact ⟨trivial, none.symm, rfl⟩
  · next some =>
    exact ⟨⟨Edit.stands_delete.2 ⟨Nat.pos_of_ne_zero some, rfl⟩, trivial⟩, rfl, rfl⟩

theorem covers_insert (old new : Lines) (i j k n : Nat) :
    (steps old new).Covers i j 0 n (step .insert k j n) := by
  unfold step
  split
  · next none => exact ⟨trivial, rfl, none.symm⟩
  · next some =>
    exact ⟨⟨Edit.stands_insert.2 ⟨Nat.pos_of_ne_zero some, rfl⟩, trivial⟩, rfl, rfl⟩

/-- All old lines go and all new ones come. -/
theorem covers_replace (old new : Lines) (i j k l m n : Nat) :
    (steps old new).Covers i j m n (step .delete i k m ++ step .insert l j n) := by
  have whole := (covers_delete old new i j k m).append (covers_insert old new (i + m) (j + 0) l n)
  rwa [Nat.add_zero, Nat.add_zero, Nat.zero_add] at whole

end

/-- A window without its first lines. -/
def Window.dropFirst (w : Window) (n : Nat) : Window := ⟨w.oldLo + n, w.oldHi, w.newLo + n, w.newHi⟩

/-- A window without its last lines. -/
def Window.dropLast (w : Window) (n : Nat) : Window := ⟨w.oldLo, w.oldHi - n, w.newLo, w.newHi - n⟩

/-- The script of a window that has no equal lines at its ends. -/
def searchBetween (old new : Lines) (fuel : Nat) (w : Window) : List Edit :=
  let replace := step .delete w.oldLo w.newLo w.oldSize ++ step .insert w.oldLo w.newLo w.newSize
  if w.oldSize = 0 || w.newSize = 0 then replace
  else
    let bound := (w.oldSize + w.newSize + 1) / 2 + 1
    match middle? old new w bound 0 (Frontier.ofBound bound) (Frontier.ofBound bound) with
    | some (x, y) =>
      search old new fuel ⟨w.oldLo, w.oldLo + x, w.newLo, w.newLo + y⟩ ++
        search old new fuel ⟨w.oldLo + x, w.oldHi, w.newLo + y, w.newHi⟩
    | none => replace

theorem search_succ (old new : Lines) (fuel : Nat) (w : Window) :
    search old new (fuel + 1) w =
      let before := commonPrefix old new w.oldLo w.newLo (min w.oldSize w.newSize)
      let left := w.dropFirst before
      let after := commonSuffix old new w.oldHi w.newHi (min left.oldSize left.newSize)
      step .keep w.oldLo w.newLo before ++ searchBetween old new fuel (left.dropLast after) ++
        step .keep (w.oldHi - after) (w.newHi - after) after :=
  rfl

/-- Everything between is replaced, or the window is cut in two. -/
theorem searchBetween_cases (old new : Lines) (fuel : Nat) (w : Window) :
    searchBetween old new fuel w =
        step .delete w.oldLo w.newLo w.oldSize ++ step .insert w.oldLo w.newLo w.newSize ∨
      ∃ x y, x ≤ w.oldSize ∧ y ≤ w.newSize ∧
        searchBetween old new fuel w =
          search old new fuel ⟨w.oldLo, w.oldLo + x, w.newLo, w.newLo + y⟩ ++
            search old new fuel ⟨w.oldLo + x, w.oldHi, w.newLo + y, w.newHi⟩ := by
  unfold searchBetween
  dsimp only
  split
  · exact .inl rfl
  · split
    · next x y found =>
      obtain ⟨inOld, inNew⟩ := middle?_of_start found
      exact .inr ⟨x, y, inOld, inNew, rfl⟩
    · exact .inl rfl

section
variable {old new : Lines}

/-- A window in the order of its bounds. -/
structure Window.Ordered (w : Window) : Prop where
  old : w.oldLo ≤ w.oldHi
  new : w.newLo ≤ w.newHi

theorem searchBetween_covers {fuel : Nat}
    (covers : ∀ w : Window, w.Ordered →
      (steps old new).Covers w.oldLo w.newLo w.oldSize w.newSize (search old new fuel w))
    {w : Window} (order : w.Ordered) :
    (steps old new).Covers w.oldLo w.newLo w.oldSize w.newSize (searchBetween old new fuel w) := by
  obtain replaced | ⟨x, y, inOld, inNew, cut⟩ := searchBetween_cases old new fuel w
  · rw [replaced]
    exact covers_replace old new _ _ _ _ _ _
  · obtain ⟨oldOrder, newOrder⟩ := order
    unfold Window.oldSize at inOld ⊢
    unfold Window.newSize at inNew ⊢
    have first := covers ⟨w.oldLo, w.oldLo + x, w.newLo, w.newLo + y⟩ ⟨by simp, by simp⟩
    have second := covers ⟨w.oldLo + x, w.oldHi, w.newLo + y, w.newHi⟩
      ⟨by dsimp only; omega, by dsimp only; omega⟩
    simp only [Window.oldSize, Window.newSize, Nat.add_sub_cancel_left] at first second
    have whole := first.append second
    rwa [← cut, show x + (w.oldHi - (w.oldLo + x)) = w.oldHi - w.oldLo by omega,
      show y + (w.newHi - (w.newLo + y)) = w.newHi - w.newLo by omega] at whole

/-- The script of a window covers it. -/
theorem search_covers (fuel : Nat) {w : Window} (order : w.Ordered) :
    (steps old new).Covers w.oldLo w.newLo w.oldSize w.newSize (search old new fuel w) := by
  induction fuel generalizing w with
  | zero => exact covers_replace old new _ _ _ _ _ _
  | succ fuel ih =>
    obtain ⟨oldOrder, newOrder⟩ := order
    rw [search_succ]
    dsimp only
    have short := commonPrefix_le old new w.oldLo w.newLo (min w.oldSize w.newSize)
    have same := commonPrefix_agree old new w.oldLo w.newLo (min w.oldSize w.newSize)
    generalize commonPrefix old new w.oldLo w.newLo (min w.oldSize w.newSize) = before
      at short same ⊢
    have short' := commonSuffix_le old new w.oldHi w.newHi
      (min (w.dropFirst before).oldSize (w.dropFirst before).newSize)
    have same' := commonSuffix_agree old new w.oldHi w.newHi
      (min (w.dropFirst before).oldSize (w.dropFirst before).newSize)
      (by unfold Window.oldSize Window.dropFirst; dsimp only; omega)
      (by unfold Window.newSize Window.dropFirst; dsimp only; omega)
    generalize commonSuffix old new w.oldHi w.newHi
      (min (w.dropFirst before).oldSize (w.dropFirst before).newSize) = after at short' same' ⊢
    unfold Window.oldSize at short short' ⊢
    unfold Window.newSize at short short' ⊢
    unfold Window.dropFirst at short' ⊢
    unfold Window.dropLast
    dsimp only at short' ⊢
    have between := searchBetween_covers (fun w order => ih order)
      (w := ⟨w.oldLo + before, w.oldHi - after, w.newLo + before, w.newHi - after⟩)
      ⟨by dsimp only; omega, by dsimp only; omega⟩
    have first := (covers_keep same).append between
    simp only [Window.oldSize, Window.newSize] at first
    have last : (steps old new).Covers
        (w.oldLo + (before + (w.oldHi - after - (w.oldLo + before))))
        (w.newLo + (before + (w.newHi - after - (w.newLo + before)))) after after
        (step .keep (w.oldHi - after) (w.newHi - after) after) := by
      rw [show w.oldLo + (before + (w.oldHi - after - (w.oldLo + before))) = w.oldHi - after by
          omega,
        show w.newLo + (before + (w.newHi - after - (w.newLo + before))) = w.newHi - after by
          omega]
      exact covers_keep same'
    have whole := first.append last
    rwa [show before + (w.oldHi - after - (w.oldLo + before)) + after = w.oldHi - w.oldLo by omega,
      show before + (w.newHi - after - (w.newLo + before)) + after = w.newHi - w.newLo by omega]
      at whole

end

end RoutineWatch.Diff
