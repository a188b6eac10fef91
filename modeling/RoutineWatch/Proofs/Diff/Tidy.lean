import RoutineWatch.Proofs.Diff.Search

/-!
# Tidying a script

Tidying leaves a script one that leads from the old text to the new one. A change slides by a
few moves: it passes kept lines that it repeats, it passes a change of the other kind, it
takes up one of its own kind, and the kept lines that it has passed join others. Whatever
survives the moves survives the tidying. Past the other kind a change keeps its idle start,
which then tells a place where it no longer stands; the layout of the steps does not look at
it.

- `Diff.Steady`: a layout whose rows survive the moves.
- `Diff.Steady.tidy`: a tidied script can stand in for the one that it comes from.
- `Diff.steps_steady`: the layout of the steps is such a layout.
-/
namespace RoutineWatch.Diff

/-- A layout whose rows stay in place under every move. -/
structure Steady (old new : Lines) (l : Layout Edit) : Prop where
  dropEmpty {e : Edit} : e.kind = .keep → e.length = 0 → l.Yields [e] []
  merge {e e' : Edit} : e.kind ≠ .keep → e.kind = e'.kind → l.Yields [e, e'] [e.grow e'.length]
  swap {e e' : Edit} : e.kind ≠ .keep → e'.kind ≠ .keep → e.kind ≠ e'.kind →
    l.Yields [e, e'] [e', e]
  passUp {e here : Edit} {n : Nat} : e.kind = .keep → here.kind = .insert → 0 < n →
    slack old new e here = n →
    l.Yields [e, here]
      (step .keep e.oldStart e.newStart (e.length - n) ++
        [here.up n, ⟨.keep, e.oldEnd - n, here.newEnd - n, n⟩])
  passDown {e here : Edit} {n : Nat} : e.kind = .keep → here.kind = .insert → 0 < n →
    slackBelow old new e here = n →
    l.Yields [here, e]
      (⟨.keep, e.oldStart, here.newStart, n⟩ :: here.down n ::
        step .keep (e.oldStart + n) (e.newStart + n) (e.length - n))
  joinBelow {e : Edit} (a b n : Nat) : e.kind = .keep →
    l.Yields [⟨.keep, a, b, n⟩, e] [(e.up n).grow n]
  joinAbove {e : Edit} (a b n : Nat) : e.kind = .keep →
    l.Yields [e, ⟨.keep, a, b, n⟩] [e.grow n]

/-! Sliding -/

section
variable {old new : Lines} {l : Layout Edit}

theorem slack_le (old new : Lines) (e here : Edit) : slack old new e here ≤ e.length := by
  unfold slack
  split
  · exact Nat.le_trans (commonSuffix_le old new _ _ _) (Nat.min_le_left _ _)
  · exact Nat.zero_le _

theorem slackBelow_le (old new : Lines) (e here : Edit) : slackBelow old new e here ≤ e.length := by
  unfold slackBelow
  split
  · exact Nat.le_trans (commonPrefix_le old new _ _ _) (Nat.min_le_left _ _)
  · exact Nat.zero_le _

theorem kind_of_slack {e here : Edit} (some : slack old new e here ≠ 0) : here.kind = .insert := by
  by_contra other
  exact some (if_neg other)

theorem kind_of_slackBelow {e here : Edit} (some : slackBelow old new e here ≠ 0) :
    here.kind = .insert := by
  by_contra other
  exact some (if_neg other)

theorem step_shrink {e : Edit} (kept : e.kind = .keep) {n : Nat} (rest : n < e.length) :
    step .keep e.oldStart e.newStart (e.length - n) = [e.shrink n] := by
  rw [step, if_neg (by omega), ← kept]
  rfl

namespace Steady

theorem keepMoreBelow (steady : Steady old new l) (kept here : Edit) (n : Nat)
    (after : List Edit) :
    l.Yields (⟨.keep, kept.oldEnd - n, here.newEnd - n, n⟩ :: after)
      (keepMoreBelow kept here n after) := by
  cases after with
  | nil => exact .refl _
  | cons e es =>
    simp only [Diff.keepMoreBelow]
    split
    · next keep => exact (steady.joinBelow _ _ n keep).within [] es
    · exact .refl _

theorem keepMoreAbove (steady : Steady old new l) (kept here : Edit) (n : Nat)
    (before : List Edit) :
    l.Yields (before.reverse ++ [⟨.keep, kept.oldStart, here.newStart, n⟩])
      (keepMoreAbove kept here n before).reverse := by
  cases before with
  | nil => exact .refl _
  | cons e es =>
    simp only [Diff.keepMoreAbove]
    split
    · next keep => simpa using (steady.joinAbove _ _ n keep).within es.reverse []
    · simpa using .refl _

/-- The script of a focus whose step has gone up past a part of a kept step. -/
theorem up (steady : Steady old new l) {e here : Edit} (kept : e.kind = .keep)
    (some : slack old new e here ≠ 0) (es after : List Edit) :
    l.Yields (es.reverse ++ [e, here] ++ after)
      (es.reverse ++ step .keep e.oldStart e.newStart (e.length - slack old new e here) ++
        here.up (slack old new e here) ::
          Diff.keepMoreBelow e here (slack old new e here) after) := by
  have pass := steady.passUp kept (kind_of_slack some) (Nat.pos_of_ne_zero some) rfl
  generalize slack old new e here = n at pass ⊢
  have join := steady.keepMoreBelow e here n after
  have first := pass.within es.reverse after
  have second := join.within
    (es.reverse ++ step .keep e.oldStart e.newStart (e.length - n) ++ [here.up n]) []
  simp only [List.append_assoc, List.cons_append, List.nil_append, List.append_nil]
    at first second ⊢
  exact first.trans second

/-- The script of a focus whose step has gone down past a part of a kept step. -/
theorem down (steady : Steady old new l) {e here : Edit} (kept : e.kind = .keep)
    (some : slackBelow old new e here ≠ 0) (before es : List Edit) :
    l.Yields (before.reverse ++ [here, e] ++ es)
      ((Diff.keepMoreAbove e here (slackBelow old new e here) before).reverse ++
        here.down (slackBelow old new e here) ::
          step .keep (e.oldStart + slackBelow old new e here)
            (e.newStart + slackBelow old new e here)
            (e.length - slackBelow old new e here) ++ es) := by
  have pass := steady.passDown kept (kind_of_slackBelow some) (Nat.pos_of_ne_zero some) rfl
  generalize slackBelow old new e here = n at pass ⊢
  have join := steady.keepMoreAbove e here n before
  have first := pass.within before.reverse es
  have second := join.within []
    (here.down n :: step .keep (e.oldStart + n) (e.newStart + n) (e.length - n) ++ es)
  simp only [List.append_assoc, List.cons_append, List.nil_append] at first second ⊢
  exact first.trans second

theorem slideUp (steady : Steady old new l) (f : Focus) (changed : f.here.kind ≠ .keep) :
    (Diff.slideUp old new f).here.kind = f.here.kind ∧
      l.Yields f.script (Diff.slideUp old new f).script := by
  fun_induction Diff.slideUp old new f with
  | case1 f none => exact ⟨rfl, .refl _⟩
  | case2 f e es before kept empty ih =>
    have drop := (steady.dropEmpty kept empty).within es.reverse (f.here :: f.after)
    obtain ⟨kind, rest⟩ := ih changed
    refine ⟨kind, .trans ?_ rest⟩
    simpa [Focus.script, before] using drop
  | case3 f e es before kept filled n stuck => exact ⟨rfl, .refl _⟩
  | case4 f e es before kept filled n some after whole ih =>
    have free : slack old new e f.here = n := (Nat.min_eq_left (slack_le _ _ _ _)).symm
    have pass := steady.up kept (free ▸ some) es f.after
    obtain ⟨kind, rest⟩ := ih changed
    refine ⟨kind, .trans ?_ rest⟩
    simpa [Focus.script, before, free, whole, step, after] using pass
  | case5 f e es before kept filled n some after part ih =>
    have free : slack old new e f.here = n := (Nat.min_eq_left (slack_le _ _ _ _)).symm
    have pass := steady.up kept (free ▸ some) es f.after
    obtain ⟨kind, rest⟩ := ih changed
    refine ⟨kind, .trans ?_ rest⟩
    have rest : n < e.length := by omega
    rw [free, step_shrink kept rest] at pass
    simpa [Focus.script, before, after] using pass
  | case6 f e es before change same ih =>
    have merge := (steady.merge change same).within es.reverse f.after
    obtain ⟨kind, rest⟩ := ih change
    refine ⟨kind.trans same, .trans ?_ rest⟩
    simpa [Focus.script, before] using merge
  | case7 f e es before change other ih =>
    have swap := (steady.swap change changed other).within es.reverse f.after
    obtain ⟨kind, rest⟩ := ih changed
    refine ⟨kind, .trans ?_ rest⟩
    simpa [Focus.script, before] using swap

theorem slideDown (steady : Steady old new l) (f : Focus) (changed : f.here.kind ≠ .keep) :
    (Diff.slideDown old new f).here.kind = f.here.kind ∧
      l.Yields f.script (Diff.slideDown old new f).script := by
  fun_induction Diff.slideDown old new f with
  | case1 f none => exact ⟨rfl, .refl _⟩
  | case2 f e es after kept empty ih =>
    have drop := (steady.dropEmpty kept empty).within (f.before.reverse ++ [f.here]) es
    obtain ⟨kind, rest⟩ := ih changed
    refine ⟨kind, .trans ?_ rest⟩
    simpa [Focus.script, after] using drop
  | case3 f e es after kept filled n stuck => exact ⟨rfl, .refl _⟩
  | case4 f e es after kept filled n some before whole ih =>
    have free : slackBelow old new e f.here = n := (Nat.min_eq_left (slackBelow_le _ _ _ _)).symm
    have pass := steady.down kept (free ▸ some) f.before es
    obtain ⟨kind, rest⟩ := ih changed
    refine ⟨kind, .trans ?_ rest⟩
    simpa [Focus.script, after, free, whole, step, before] using pass
  | case5 f e es after kept filled n some before part ih =>
    have free : slackBelow old new e f.here = n := (Nat.min_eq_left (slackBelow_le _ _ _ _)).symm
    have pass := steady.down kept (free ▸ some) f.before es
    obtain ⟨kind, rest⟩ := ih changed
    refine ⟨kind, .trans ?_ rest⟩
    have rest : n < (e.down n).length := show n < e.length by omega
    have left := step_shrink (e := e.down n) kept rest
    rw [free, show e.oldStart + n = (e.down n).oldStart from rfl,
      show e.newStart + n = (e.down n).newStart from rfl,
      show e.length - n = (e.down n).length - n from rfl, left] at pass
    simpa [Focus.script, after, before] using pass
  | case6 f e es after change same ih =>
    have merge := (steady.merge changed same.symm).within f.before.reverse es
    obtain ⟨kind, rest⟩ := ih changed
    refine ⟨kind, .trans ?_ rest⟩
    simpa [Focus.script, after] using merge
  | case7 f e es after change other ih =>
    have swap := (steady.swap changed change (Ne.symm other)).within f.before.reverse es
    obtain ⟨kind, rest⟩ := ih changed
    refine ⟨kind, .trans ?_ rest⟩
    simpa [Focus.script, after] using swap

theorem slideAll (steady : Steady old new l) {kind : Kind} (change : kind ≠ .keep) (fuel : Nat)
    (before after : List Edit) :
    l.Yields (before.reverse ++ after) (Diff.slideAll old new kind fuel before after) := by
  fun_induction Diff.slideAll old new kind fuel before after with
  | case1 before after => exact .refl _
  | case2 fuel before => simpa using .refl _
  | case3 fuel before e es same f ih =>
    have changed : e.kind ≠ .keep := same ▸ change
    obtain ⟨kindUp, up⟩ := steady.slideUp ⟨before, e, es⟩ changed
    have changedUp := kindUp.trans_ne changed
    have down := (steady.slideDown _ changedUp).2
    refine .trans (up.trans down) ?_
    simpa [Focus.script] using ih
  | case4 fuel before e es other ih => simpa using ih

/-- A tidied script can stand in for the one that it comes from. -/
theorem tidy (steady : Steady old new l) (script : List Edit) :
    l.Yields script (Diff.tidy old new script) :=
  .trans (steady.slideAll (by decide) _ [] script) (steady.slideAll (by decide) _ [] _)

end Steady

end

/-! The steps -/

section
variable {old new : Lines}

/-- A kept step without lines can go. -/
theorem steps_dropEmpty {e : Edit} (kept : e.kind = .keep) (empty : e.length = 0) :
    (steps old new).Yields [e] [] := by
  obtain ⟨kind, a, b, n⟩ := e
  subst kept empty
  exact ⟨rfl, rfl, fun i j _ => (steps old new).lies_nil i j⟩

/-- A change takes up one of its own kind. -/
theorem steps_merge {e e' : Edit} (changed : e.kind ≠ .keep) (same : e.kind = e'.kind) :
    (steps old new).Yields [e, e'] [e.grow e'.length] := by
  obtain ⟨kind, a, b, n⟩ := e
  obtain ⟨kind', a', b', n'⟩ := e'
  subst same
  cases kind with
  | keep => exact absurd rfl changed
  | delete =>
    refine ⟨by simp [Edit.grow], by simp [Edit.grow], fun i j lies => ?_⟩
    simp [Edit.grow] at lies ⊢
    omega
  | insert =>
    refine ⟨by simp [Edit.grow], by simp [Edit.grow], fun i j lies => ?_⟩
    simp [Edit.grow] at lies ⊢
    omega

/-- Changes of different kinds pass each other. -/
theorem steps_swap {e e' : Edit} (changed : e.kind ≠ .keep) (changed' : e'.kind ≠ .keep)
    (other : e.kind ≠ e'.kind) : (steps old new).Yields [e, e'] [e', e] := by
  obtain ⟨kind, a, b, n⟩ := e
  obtain ⟨kind', a', b', n'⟩ := e'
  cases kind <;> cases kind' <;> simp at changed changed' other ⊢
  · refine ⟨by simp, by simp, fun i j lies => ?_⟩
    simp at lies ⊢
    omega
  · refine ⟨by simp, by simp, fun i j lies => ?_⟩
    simp at lies ⊢
    omega

/-- An insertion goes up past the last lines of a kept step if it ends with them. -/
theorem steps_passUp {e here : Edit} {n : Nat} (kept : e.kind = .keep)
    (inserted : here.kind = .insert) (some : 0 < n) (repeats : slack old new e here = n) :
    (steps old new).Yields [e, here]
      (step .keep e.oldStart e.newStart (e.length - n) ++
        [here.up n, ⟨.keep, e.oldEnd - n, here.newEnd - n, n⟩]) := by
  obtain ⟨kind, a, b, m⟩ := e
  obtain ⟨kind', a', b', m'⟩ := here
  subst kept inserted
  simp only [slack, Edit.oldEnd, Edit.newEnd, ↓reduceIte, reduceCtorEq] at repeats
  have short := commonSuffix_le old new (a + m) (b' + m') (min m m')
  have agree := commonSuffix_agree old new (a + m) (b' + m') (min m m') (by omega) (by omega)
  rw [repeats] at short agree
  simp only [Edit.up, Edit.oldEnd, Edit.newEnd, ↓reduceIte, reduceCtorEq]
  refine ⟨by simp; omega, by simp; omega, fun i j lies => ?_⟩
  simp only [Layout.lies_cons, stands_steps, Edit.stands_keep, oldSize_steps, Edit.oldSize_keep,
    newSize_steps, Edit.newSize_keep, Edit.stands_insert] at lies
  obtain ⟨⟨_, rfl, rfl, same⟩, ⟨_, rfl⟩, -⟩ := lies
  rw [show m = m - n + n by omega, agree_add] at same
  rw [Layout.lies_append]
  refine ⟨lies_step_keep same.1, ?_⟩
  simp only [oldSpan_step_keep, newSpan_step_keep, Layout.lies_cons, stands_steps,
    Edit.stands_insert, oldSize_steps, Edit.oldSize_insert, Nat.add_zero, newSize_steps,
    Edit.newSize_insert, Edit.stands_keep]
  refine ⟨by omega, ⟨some, by omega, by omega, ?_⟩, trivial⟩
  rwa [show a + (m - n) = a + m - n by omega, show b + (m - n) + m' = b + m + m' - n by omega]

/-- An insertion goes down past the first lines of a kept step if it starts with them. -/
theorem steps_passDown {e here : Edit} {n : Nat} (kept : e.kind = .keep)
    (inserted : here.kind = .insert) (some : 0 < n) (repeats : slackBelow old new e here = n) :
    (steps old new).Yields [here, e]
      (⟨.keep, e.oldStart, here.newStart, n⟩ :: here.down n ::
        step .keep (e.oldStart + n) (e.newStart + n) (e.length - n)) := by
  obtain ⟨kind, a, b, m⟩ := e
  obtain ⟨kind', a', b', m'⟩ := here
  subst kept inserted
  simp only [slackBelow, ↓reduceIte] at repeats
  have short := commonPrefix_le old new a b' (min m m')
  have agree := commonPrefix_agree old new a b' (min m m')
  rw [repeats] at short agree
  simp only [Edit.down]
  refine ⟨by simp; omega, by simp; omega, fun i j lies => ?_⟩
  simp only [Layout.lies_cons, stands_steps, Edit.stands_insert, oldSize_steps,
    Edit.oldSize_insert, Nat.add_zero, newSize_steps, Edit.newSize_insert, Edit.stands_keep] at lies
  obtain ⟨⟨filled, rfl⟩, ⟨_, rfl, rfl, same⟩, -⟩ := lies
  rw [show m = n + (m - n) by omega, agree_add] at same
  simp only [Layout.lies_cons, stands_steps, Edit.stands_keep, true_and, oldSize_steps,
    Edit.oldSize_keep, newSize_steps, Edit.newSize_keep, Edit.stands_insert, and_true,
    Edit.oldSize_insert, Nat.add_zero, Edit.newSize_insert]
  refine ⟨⟨some, agree⟩, filled, ?_⟩
  rw [show b' + n + m' = b' + m' + n by omega]
  exact lies_step_keep same.2

/-- Kept lines join a kept step after them. -/
theorem steps_joinBelow {e : Edit} (a b n : Nat) (kept : e.kind = .keep) :
    (steps old new).Yields [⟨.keep, a, b, n⟩, e] [(e.up n).grow n] := by
  obtain ⟨kind, a', b', m⟩ := e
  subst kept
  refine ⟨?_, ?_, fun i j lies => ?_⟩
  · simp [Edit.up, Edit.grow, Nat.add_comm]
  · simp [Edit.up, Edit.grow, Nat.add_comm]
  · simp only [Layout.lies_cons, stands_steps, Edit.stands_keep, oldSize_steps,
      Edit.oldSize_keep, newSize_steps, Edit.newSize_keep] at lies
    obtain ⟨⟨some, _, _, agree⟩, ⟨_, rfl, rfl, agree'⟩, -⟩ := lies
    have both := agree_add.2 ⟨agree, agree'⟩
    rw [Nat.add_comm] at both
    exact ⟨Edit.stands_keep.2
      ⟨by omega, Nat.add_sub_cancel .., Nat.add_sub_cancel .., both⟩, trivial⟩

/-- Kept lines join a kept step before them. -/
theorem steps_joinAbove {e : Edit} (a b n : Nat) (kept : e.kind = .keep) :
    (steps old new).Yields [e, ⟨.keep, a, b, n⟩] [e.grow n] := by
  obtain ⟨kind, a', b', m⟩ := e
  subst kept
  refine ⟨by simp [Edit.grow], by simp [Edit.grow], fun i j lies => ?_⟩
  simp only [Layout.lies_cons, stands_steps, Edit.stands_keep, oldSize_steps,
    Edit.oldSize_keep, newSize_steps, Edit.newSize_keep] at lies
  obtain ⟨⟨some, rfl, rfl, agree⟩, ⟨_, _, _, agree'⟩, -⟩ := lies
  exact ⟨Edit.stands_keep.2 ⟨by omega, rfl, rfl, agree_add.2 ⟨agree, agree'⟩⟩, trivial⟩

theorem steps_steady (old new : Lines) : Steady old new (steps old new) where
  dropEmpty := steps_dropEmpty
  merge := steps_merge
  swap := steps_swap
  passUp := steps_passUp
  passDown := steps_passDown
  joinBelow := steps_joinBelow
  joinAbove := steps_joinAbove

end

end RoutineWatch.Diff
