import RoutineWatch.Proofs.Diff.Tidy

/-!
# Idle starts

Where an insertion says it stands in the old text, and a deletion in the new one. Idle starts
count the kept lines before the step, as long as the script takes nothing away or adds
nothing, so that there is nothing that a step could have slid past.

- `Diff.script_covers`: the script of two texts leads from the one to the other, and if it
  removes or adds nothing, its idle starts are at their places.
-/
namespace RoutineWatch.Diff

/-- How many lines a step keeps. -/
def Edit.keptSize (e : Edit) : Nat := if e.kind = .keep then e.length else 0

/-- How the idle starts follow the kept lines: those of insertions if nothing is removed,
those of deletions if nothing is added. -/
def idles (noRemoved noAdded : Prop) : Layout Edit where
  oldSize := Edit.keptSize
  newSize := Edit.keptSize
  Stands i j e :=
    (e.kind = .insert → noRemoved → e.oldStart = i) ∧ (e.kind = .delete → noAdded → e.newStart = j)

section
variable {old new : Lines} {noRemoved noAdded : Prop}

@[simp] theorem oldSize_idles (e : Edit) : (idles noRemoved noAdded).oldSize e = e.keptSize := rfl

@[simp] theorem newSize_idles (e : Edit) : (idles noRemoved noAdded).newSize e = e.keptSize := rfl

@[simp] theorem keptSize_keep (a b n : Nat) : (Edit.mk .keep a b n).keptSize = n := rfl

@[simp] theorem keptSize_delete (a b n : Nat) : (Edit.mk .delete a b n).keptSize = 0 := rfl

@[simp] theorem keptSize_insert (a b n : Nat) : (Edit.mk .insert a b n).keptSize = 0 := rfl

@[simp] theorem idles_keep (i j a b n : Nat) :
    (idles noRemoved noAdded).Stands i j ⟨.keep, a, b, n⟩ := by
  simp [idles]

@[simp] theorem idles_delete {i j a b n : Nat} :
    (idles noRemoved noAdded).Stands i j ⟨.delete, a, b, n⟩ ↔ (noAdded → b = j) := by
  simp [idles]

@[simp] theorem idles_insert {i j a b n : Nat} :
    (idles noRemoved noAdded).Stands i j ⟨.insert, a, b, n⟩ ↔ (noRemoved → a = i) := by
  simp [idles]

/-! The moves -/

@[simp] theorem oldSpan_idles_step (i j n : Nat) :
    (idles noRemoved noAdded).oldSpan (step .keep i j n) = n := by
  unfold step
  split
  · next none => exact none.symm
  · rfl

@[simp] theorem newSpan_idles_step (i j n : Nat) :
    (idles noRemoved noAdded).newSpan (step .keep i j n) = n := by
  unfold step
  split
  · next none => exact none.symm
  · rfl

theorem idles_step (i j a b n : Nat) : (idles noRemoved noAdded).Lies i j (step .keep a b n) := by
  unfold step
  split
  · trivial
  · exact ⟨idles_keep .., trivial⟩

theorem idles_steady (old new : Lines) (noRemoved noAdded : Prop) :
    Steady old new (idles noRemoved noAdded) where
  dropEmpty {e} kept empty := by
    obtain ⟨kind, a, b, n⟩ := e
    subst kept empty
    exact ⟨rfl, rfl, fun i j _ => Layout.lies_nil _ i j⟩
  merge {e e'} changed same := by
    obtain ⟨kind, a, b, n⟩ := e
    obtain ⟨kind', a', b', n'⟩ := e'
    subst same
    cases kind with
    | keep => exact absurd rfl changed
    | delete => exact ⟨rfl, rfl, fun i j lies => ⟨lies.1, trivial⟩⟩
    | insert => exact ⟨rfl, rfl, fun i j lies => ⟨lies.1, trivial⟩⟩
  swap {e e'} changed changed' other := by
    obtain ⟨kind, a, b, n⟩ := e
    obtain ⟨kind', a', b', n'⟩ := e'
    cases kind <;> cases kind' <;> simp at changed changed' other ⊢
    · exact ⟨rfl, rfl, fun i j lies => ⟨lies.2.1, lies.1, trivial⟩⟩
    · exact ⟨rfl, rfl, fun i j lies => ⟨lies.2.1, lies.1, trivial⟩⟩
  passUp {e here n} kept inserted some repeats := by
    obtain ⟨kind, a, b, m⟩ := e
    obtain ⟨kind', a', b', m'⟩ := here
    subst kept inserted
    have short : n ≤ m := repeats ▸ slack_le old new ⟨.keep, a, b, m⟩ ⟨.insert, a', b', m'⟩
    simp only [Edit.up]
    refine ⟨by simp; omega, by simp; omega, fun i j lies => ?_⟩
    have start := idles_insert.1 lies.2.1
    refine (Layout.lies_append _).2
      ⟨idles_step .., idles_insert.2 fun pure => ?_, idles_keep .., trivial⟩
    simp at start ⊢
    have := start pure
    omega
  passDown {e here n} kept inserted some repeats := by
    obtain ⟨kind, a, b, m⟩ := e
    obtain ⟨kind', a', b', m'⟩ := here
    subst kept inserted
    have short : n ≤ m := repeats ▸ slackBelow_le old new ⟨.keep, a, b, m⟩ ⟨.insert, a', b', m'⟩
    simp only [Edit.down]
    refine ⟨by simp; omega, by simp; omega, fun i j lies => ?_⟩
    have start := idles_insert.1 lies.1
    exact ⟨idles_keep .., idles_insert.2 fun pure => congrArg (· + n) (start pure), idles_step ..⟩
  joinBelow {e} a b n kept := by
    obtain ⟨kind, a', b', m⟩ := e
    subst kept
    refine ⟨?_, ?_, fun i j _ => ⟨idles_keep .., trivial⟩⟩
    · simp [Edit.up, Edit.grow, Nat.add_comm]
    · simp [Edit.up, Edit.grow, Nat.add_comm]
  joinAbove {e} a b n kept := by
    obtain ⟨kind, a', b', m⟩ := e
    subst kept
    exact ⟨by simp [Edit.grow], by simp [Edit.grow], fun i j _ => ⟨idles_keep .., trivial⟩⟩

/-! The search -/

theorem kept_le_old (old new : Lines) (script : List Edit) :
    (idles noRemoved noAdded).oldSpan script ≤ (steps old new).oldSpan script := by
  induction script with
  | nil => exact Nat.le_refl 0
  | cons e es ih =>
    obtain ⟨kind, a, b, n⟩ := e
    cases kind <;> simp <;> omega

theorem kept_le_new (old new : Lines) (script : List Edit) :
    (idles noRemoved noAdded).newSpan script ≤ (steps old new).newSpan script := by
  induction script with
  | nil => exact Nat.le_refl 0
  | cons e es ih =>
    obtain ⟨kind, a, b, n⟩ := e
    cases kind <;> simp <;> omega

theorem idles_replace {i j a b a' b' m n : Nat} (atNew : noAdded → b = j)
    (atOld : noRemoved → a' = i) :
    (idles noRemoved noAdded).Lies i j (step .delete a b m ++ step .insert a' b' n) := by
  have insertion : (idles noRemoved noAdded).Lies i j (step .insert a' b' n) := by
    unfold step
    split
    · trivial
    · exact ⟨idles_insert.2 atOld, trivial⟩
  unfold step at insertion ⊢
  split
  · exact insertion
  · exact ⟨idles_delete.2 atNew, insertion⟩

theorem oldSpan_idles_replace (a b a' b' m n : Nat) :
    (idles noRemoved noAdded).oldSpan (step .delete a b m ++ step .insert a' b' n) = 0 := by
  unfold step
  split <;> split <;> rfl

/-- If nothing is removed, a script for a window keeps all its old lines, and those before
the window have been kept too; so do the new ones if nothing is added. -/
structure KeepsAll (noRemoved noAdded : Prop) (w : Window) (i j : Nat) (script : List Edit) :
    Prop where
  old : noRemoved →
    w.oldLo = i ∧ (idles noRemoved noAdded).oldSpan script = w.oldSize
  new : noAdded →
    w.newLo = j ∧ (idles noRemoved noAdded).newSpan script = w.newSize

theorem kept_search_le (old new : Lines) (noRemoved noAdded : Prop) (fuel : Nat) {w : Window}
    (order : w.Ordered) :
    (idles noRemoved noAdded).oldSpan (search old new fuel w) ≤ w.oldSize ∧
      (idles noRemoved noAdded).newSpan (search old new fuel w) ≤ w.newSize := by
  have covers : (steps old new).Covers w.oldLo w.newLo w.oldSize w.newSize
      (search old new fuel w) := search_covers fuel order
  exact ⟨covers.oldSpan_eq ▸ kept_le_old old new _, covers.newSpan_eq ▸ kept_le_new old new _⟩

theorem searchBetween_idles {fuel : Nat}
    (follows : ∀ (w : Window) (i j : Nat), w.Ordered →
      KeepsAll noRemoved noAdded w i j (search old new fuel w) →
      (idles noRemoved noAdded).Lies i j (search old new fuel w))
    {w : Window} (order : w.Ordered) {i j : Nat}
    (all : KeepsAll noRemoved noAdded w i j (searchBetween old new fuel w)) :
    (idles noRemoved noAdded).Lies i j (searchBetween old new fuel w) := by
  obtain replaced | ⟨x, y, inOld, inNew, cut⟩ := searchBetween_cases old new fuel w
  · rw [replaced]
    exact idles_replace (fun pure => (all.new pure).1) (fun pure => (all.old pure).1)
  · obtain ⟨oldOrder, newOrder⟩ := order
    obtain ⟨allOld, allNew⟩ := all
    have order₁ : Window.Ordered ⟨w.oldLo, w.oldLo + x, w.newLo, w.newLo + y⟩ :=
      ⟨by simp, by simp⟩
    have order₂ : Window.Ordered ⟨w.oldLo + x, w.oldHi, w.newLo + y, w.newHi⟩ :=
      ⟨by unfold Window.oldSize at inOld; dsimp only; omega,
        by unfold Window.newSize at inNew; dsimp only; omega⟩
    -- Neither part keeps more than it has, so if all is kept, each part keeps all it has.
    have most₁ := kept_search_le old new noRemoved noAdded fuel order₁
    have most₂ := kept_search_le old new noRemoved noAdded fuel order₂
    rw [cut] at allOld allNew ⊢
    simp only [Layout.oldSpan_append, Layout.newSpan_append] at allOld allNew
    simp only [Window.oldSize, Window.newSize] at inOld inNew allOld allNew most₁ most₂
    rw [Layout.lies_append]
    refine ⟨follows _ _ _ order₁ ⟨fun pure => ?_, fun pure => ?_⟩,
      follows _ _ _ order₂ ⟨fun pure => ?_, fun pure => ?_⟩⟩
    all_goals simp only [Window.oldSize, Window.newSize]
    · have := allOld pure
      omega
    · have := allNew pure
      omega
    · have := allOld pure
      omega
    · have := allNew pure
      omega

theorem search_idles (fuel : Nat) {w : Window} (order : w.Ordered) {i j : Nat}
    (all : KeepsAll noRemoved noAdded w i j (search old new fuel w)) :
    (idles noRemoved noAdded).Lies i j (search old new fuel w) := by
  induction fuel generalizing w i j with
  | zero =>
    obtain ⟨oldOrder, newOrder⟩ := order
    refine idles_replace (fun pure => (all.new pure).1) (fun pure => ?_)
    have := all.old pure
    simp only [search, oldSpan_idles_replace, Window.oldSize] at this
    omega
  | succ fuel ih =>
    obtain ⟨oldOrder, newOrder⟩ := order
    obtain ⟨allOld, allNew⟩ := all
    rw [search_succ] at allOld allNew ⊢
    dsimp only at allOld allNew ⊢
    have short := commonPrefix_le old new w.oldLo w.newLo (min w.oldSize w.newSize)
    generalize commonPrefix old new w.oldLo w.newLo (min w.oldSize w.newSize) = before
      at short allOld allNew ⊢
    have short' := commonSuffix_le old new w.oldHi w.newHi
      (min (w.dropFirst before).oldSize (w.dropFirst before).newSize)
    generalize commonSuffix old new w.oldHi w.newHi
      (min (w.dropFirst before).oldSize (w.dropFirst before).newSize) = after
      at short' allOld allNew ⊢
    simp only [Window.oldSize, Window.newSize, Window.dropFirst] at short short'
    simp only [Layout.oldSpan_append, Layout.newSpan_append, oldSpan_idles_step,
      newSpan_idles_step] at allOld allNew
    rw [Layout.lies_append, Layout.lies_append]
    refine ⟨⟨idles_step .., searchBetween_idles (fun w i j order all => ih order all)
      ?_ ⟨fun pure => ?_, fun pure => ?_⟩⟩, idles_step ..⟩
    · constructor <;> simp only [Window.dropFirst, Window.dropLast] <;> omega
    · have := allOld pure
      simp only [Window.oldSize, Window.dropFirst, Window.dropLast, oldSpan_idles_step] at this ⊢
      omega
    · have := allNew pure
      simp only [Window.newSize, Window.dropFirst, Window.dropLast, newSpan_idles_step] at this ⊢
      omega

/-! The script of two texts -/

/-- How steps lie in the texts whose idle starts are at their place if nothing is removed,
or added. -/
def firmSteps (old new : Lines) (noRemoved noAdded : Prop) : Layout Edit where
  oldSize := Edit.oldSize
  newSize := Edit.newSize
  Stands i j e := e.Stands old new i j ∧ (noRemoved → e.oldStart = i) ∧ (noAdded → e.newStart = j)

@[simp] theorem oldSize_firmSteps (e : Edit) :
    (firmSteps old new noRemoved noAdded).oldSize e = e.oldSize := rfl

@[simp] theorem newSize_firmSteps (e : Edit) :
    (firmSteps old new noRemoved noAdded).newSize e = e.newSize := rfl

def NoneRemoved (script : List Edit) : Prop := ∀ e ∈ script, e.kind ≠ .delete

def NoneAdded (script : List Edit) : Prop := ∀ e ∈ script, e.kind ≠ .insert

theorem kept_of_noneRemoved (old new : Lines) (noRemoved noAdded : Prop) {script : List Edit}
    (none : NoneRemoved script) :
    (idles noRemoved noAdded).oldSpan script = (steps old new).oldSpan script := by
  induction script with
  | nil => rfl
  | cons e es ih =>
    obtain ⟨here, later⟩ := List.forall_mem_cons.1 none
    obtain ⟨kind, a, b, n⟩ := e
    cases kind with
    | delete => exact absurd rfl here
    | keep => simp [ih later]
    | insert => simp [ih later]

theorem kept_of_noneAdded (old new : Lines) (noRemoved noAdded : Prop) {script : List Edit}
    (none : NoneAdded script) :
    (idles noRemoved noAdded).newSpan script = (steps old new).newSpan script := by
  induction script with
  | nil => rfl
  | cons e es ih =>
    obtain ⟨here, later⟩ := List.forall_mem_cons.1 none
    obtain ⟨kind, a, b, n⟩ := e
    cases kind with
    | insert => exact absurd rfl here
    | keep => simp [ih later]
    | delete => simp [ih later]

/-- As long as all old lines are kept, the kept lines before a step are the old ones. -/
theorem firmSteps_of_idles {script : List Edit} (noneRemoved : noRemoved → NoneRemoved script)
    (noneAdded : noAdded → NoneAdded script) {i j k l : Nat}
    (lies : (steps old new).Lies i j script) (idle : (idles noRemoved noAdded).Lies k l script)
    (atOld : noRemoved → k = i) (atNew : noAdded → l = j) :
    (firmSteps old new noRemoved noAdded).Lies i j script := by
  induction script generalizing i j k l with
  | nil => trivial
  | cons e es ih =>
    obtain ⟨stands, lies⟩ := lies
    obtain ⟨start, idle⟩ := idle
    have restOld (pure : noRemoved) : NoneRemoved es :=
      (List.forall_mem_cons.1 (noneRemoved pure)).2
    have restNew (pure : noAdded) : NoneAdded es := (List.forall_mem_cons.1 (noneAdded pure)).2
    obtain ⟨kind, a, b, n⟩ := e
    cases kind with
    | keep =>
      obtain ⟨_, rfl, rfl, _⟩ := Edit.stands_keep.1 stands
      exact ⟨⟨stands, fun _ => rfl, fun _ => rfl⟩, ih restOld restNew lies idle
        (fun pure => by simp [atOld pure]) (fun pure => by simp [atNew pure])⟩
    | delete =>
      have removed : ¬ noRemoved := fun pure => noneRemoved pure _ List.mem_cons_self rfl
      obtain ⟨_, rfl⟩ := Edit.stands_delete.1 stands
      have firm (pure : noAdded) : b = j := (idles_delete.1 start pure).trans (atNew pure)
      exact ⟨⟨stands, fun _ => rfl, firm⟩, ih restOld restNew lies idle
        (fun pure => absurd pure removed) (fun pure => by simp [atNew pure])⟩
    | insert =>
      have added : ¬ noAdded := fun pure => noneAdded pure _ List.mem_cons_self rfl
      obtain ⟨_, rfl⟩ := Edit.stands_insert.1 stands
      have firm (pure : noRemoved) : a = i := (idles_insert.1 start pure).trans (atOld pure)
      exact ⟨⟨stands, firm, fun _ => rfl⟩, ih restOld restNew lies idle
        (fun pure => by simp [atOld pure]) (fun pure => absurd pure added)⟩

/-- The script of two texts leads from the one to the other. If it removes nothing, its
insertions start where they stand in the old text; if it adds nothing, its deletions start
where they stand in the new one. -/
theorem script_covers (old new : Lines) :
    (firmSteps old new (NoneRemoved (script old new)) (NoneAdded (script old new))).Covers 0 0
      old.size new.size (script old new) := by
  generalize noRemoved_eq : NoneRemoved (script old new) = noRemoved
  generalize noAdded_eq : NoneAdded (script old new) = noAdded
  let w : Window := ⟨0, old.size, 0, new.size⟩
  have order : w.Ordered := ⟨Nat.zero_le _, Nat.zero_le _⟩
  let found := search old new (old.size + new.size + 1) w
  have covers : (steps old new).Covers 0 0 old.size new.size (script old new) :=
    .of_yields (search_covers _ order) ((steps_steady old new).tidy _)
  have moved : (idles noRemoved noAdded).Yields found (script old new) :=
    (idles_steady old new noRemoved noAdded).tidy found
  have all : KeepsAll noRemoved noAdded w 0 0 found := by
    refine ⟨fun pure => ⟨rfl, ?_⟩, fun pure => ⟨rfl, ?_⟩⟩
    · have kept := kept_of_noneRemoved old new noRemoved noAdded (noRemoved_eq ▸ pure)
      exact moved.oldSpan_eq.symm.trans (kept.trans covers.oldSpan_eq)
    · have kept := kept_of_noneAdded old new noRemoved noAdded (noAdded_eq ▸ pure)
      exact moved.newSpan_eq.symm.trans (kept.trans covers.newSpan_eq)
  have idle := moved.lies 0 0 (search_idles _ order all)
  exact ⟨firmSteps_of_idles (fun pure => noRemoved_eq ▸ pure) (fun pure => noAdded_eq ▸ pure)
    covers.lies idle (fun _ => rfl) (fun _ => rfl), covers.oldSpan_eq, covers.newSpan_eq⟩

end

end RoutineWatch.Diff
