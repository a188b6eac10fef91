import RoutineWatch.Diff.Edit

/-!
# Where the parts of a comparison stand

Parts in a row lie in the two texts if each stands where the one before it ends; what is
asked of a part at its place depends on the kind of parts. One row can stand in for another
if it takes up as much of both texts and lies wherever the other one does.

- `Diff.Layout`: what is asked of the parts of a kind.
- `Diff.Layout.Covers`: a row that takes up so many lines of each text.
- `Diff.Layout.Yields.within`: what stands before and after a row does not matter.
-/
namespace RoutineWatch.Diff

/-! Lines that agree -/

section
variable {old new : Lines} {i j : Nat}

/-- So many lines of the old text from `i` on are the lines of the new one from `j` on. -/
def Agree (old new : Lines) (i j count : Nat) : Prop :=
  ∀ k < count, old.getD (i + k) [] = new.getD (j + k) []

theorem agree_zero : Agree old new i j 0 := by
  intro k less
  omega

theorem agree_add {m n : Nat} :
    Agree old new i j (m + n) ↔ Agree old new i j m ∧ Agree old new (i + m) (j + m) n := by
  constructor
  · intro agree
    refine ⟨fun k less => agree k (by omega), fun k less => ?_⟩
    have later := agree (m + k) (by omega)
    rwa [← Nat.add_assoc, ← Nat.add_assoc] at later
  · rintro ⟨first, second⟩ k less
    by_cases early : k < m
    · exact first k early
    · have later := second (k - m) (by omega)
      rwa [show i + m + (k - m) = i + k by omega, show j + m + (k - m) = j + k by omega] at later

theorem commonPrefix_le (old new : Lines) (i j count : Nat) :
    commonPrefix old new i j count ≤ count := by
  induction count generalizing i j with
  | zero => exact Nat.le_refl 0
  | succ count ih =>
    simp only [commonPrefix]
    split
    · exact Nat.succ_le_succ (ih (i + 1) (j + 1))
    · exact Nat.zero_le _

theorem commonSuffix_le (old new : Lines) (i j count : Nat) :
    commonSuffix old new i j count ≤ count := by
  induction count generalizing i j with
  | zero => exact Nat.le_refl 0
  | succ count ih =>
    simp only [commonSuffix]
    split
    · exact Nat.succ_le_succ (ih (i - 1) (j - 1))
    · exact Nat.zero_le _

theorem commonPrefix_agree (old new : Lines) (i j count : Nat) :
    Agree old new i j (commonPrefix old new i j count) := by
  induction count generalizing i j with
  | zero => exact agree_zero
  | succ count ih =>
    simp only [commonPrefix]
    split
    · next same =>
      rw [Nat.add_comm, agree_add]
      refine ⟨fun k less => ?_, ih (i + 1) (j + 1)⟩
      rwa [Nat.lt_one_iff.1 less]
    · exact agree_zero

/-- The lines that agree before `i` and `j` are those from as many lines further up. -/
theorem commonSuffix_agree (old new : Lines) (i j count : Nat) (inOld : count ≤ i)
    (inNew : count ≤ j) :
    Agree old new (i - commonSuffix old new i j count) (j - commonSuffix old new i j count)
      (commonSuffix old new i j count) := by
  induction count generalizing i j with
  | zero => exact agree_zero
  | succ count ih =>
    simp only [commonSuffix]
    split
    · next same =>
      have before := ih (i - 1) (j - 1) (by omega) (by omega)
      have bound := commonSuffix_le old new (i - 1) (j - 1) count
      generalize commonSuffix old new (i - 1) (j - 1) count = length at before bound
      rw [agree_add, show i - (length + 1) = i - 1 - length by omega,
        show j - (length + 1) = j - 1 - length by omega]
      refine ⟨before, fun k less => ?_⟩
      rwa [Nat.lt_one_iff.1 less, show i - 1 - length + length + 0 = i - 1 by omega,
        show j - 1 - length + length + 0 = j - 1 by omega]
    · exact agree_zero

end

/-! Rows of parts -/

/-- The sizes of the parts of a row together. -/
def total {α : Type} (size : α → Nat) : List α → Nat
  | [] => 0
  | x :: xs => size x + total size xs

@[simp] theorem total_nil {α : Type} (size : α → Nat) : total size [] = 0 := rfl

@[simp] theorem total_cons {α : Type} (size : α → Nat) (x : α) (xs : List α) :
    total size (x :: xs) = size x + total size xs := rfl

@[simp] theorem total_append {α : Type} (size : α → Nat) (xs ys : List α) :
    total size (xs ++ ys) = total size xs + total size ys := by
  induction xs with
  | nil => simp
  | cons x xs ih => simp [ih, Nat.add_assoc]

/-- How many lines of each text a part takes up, and what is asked of the place where it
stands. -/
structure Layout (α : Type) where
  oldSize : α → Nat
  newSize : α → Nat
  Stands : Nat → Nat → α → Prop

namespace Layout
variable {α : Type} (l : Layout α)

/-- How many lines of the old text a row takes up. -/
def oldSpan (xs : List α) : Nat := total l.oldSize xs

/-- How many lines of the new text a row takes up. -/
def newSpan (xs : List α) : Nat := total l.newSize xs

/-- Every part stands where the one before it ends, the first at the given lines. -/
def Lies : Nat → Nat → List α → Prop
  | _, _, [] => True
  | i, j, x :: xs => l.Stands i j x ∧ Lies (i + l.oldSize x) (j + l.newSize x) xs

@[simp] theorem oldSpan_nil : l.oldSpan [] = 0 := rfl

@[simp] theorem newSpan_nil : l.newSpan [] = 0 := rfl

@[simp] theorem oldSpan_cons (x : α) (xs : List α) :
    l.oldSpan (x :: xs) = l.oldSize x + l.oldSpan xs := rfl

@[simp] theorem newSpan_cons (x : α) (xs : List α) :
    l.newSpan (x :: xs) = l.newSize x + l.newSpan xs := rfl

@[simp] theorem oldSpan_append (xs ys : List α) :
    l.oldSpan (xs ++ ys) = l.oldSpan xs + l.oldSpan ys :=
  total_append l.oldSize xs ys

@[simp] theorem newSpan_append (xs ys : List α) :
    l.newSpan (xs ++ ys) = l.newSpan xs + l.newSpan ys :=
  total_append l.newSize xs ys

@[simp] theorem lies_nil (i j : Nat) : l.Lies i j [] := trivial

@[simp] theorem lies_cons {i j : Nat} {x : α} {xs : List α} :
    l.Lies i j (x :: xs) ↔ l.Stands i j x ∧ l.Lies (i + l.oldSize x) (j + l.newSize x) xs :=
  Iff.rfl

@[simp] theorem lies_append {i j : Nat} {xs ys : List α} :
    l.Lies i j (xs ++ ys) ↔ l.Lies i j xs ∧ l.Lies (i + l.oldSpan xs) (j + l.newSpan xs) ys := by
  induction xs generalizing i j with
  | nil => simp
  | cons x xs ih => simp [ih, and_assoc, Nat.add_assoc]

/-- Every part of a row stands somewhere. -/
theorem exists_stands {i j : Nat} {xs : List α} (lies : l.Lies i j xs) {x : α} (member : x ∈ xs) :
    ∃ k m, l.Stands k m x := by
  induction xs generalizing i j with
  | nil => cases member
  | cons y xs ih =>
    obtain rfl | later := List.mem_cons.1 member
    · exact ⟨i, j, lies.1⟩
    · exact ih lies.2 later

/-- A row that lies from the given lines on and takes up so many lines of each text. -/
structure Covers (i j oldCount newCount : Nat) (xs : List α) : Prop where
  lies : l.Lies i j xs
  oldSpan_eq : l.oldSpan xs = oldCount
  newSpan_eq : l.newSpan xs = newCount

variable {l}

theorem Covers.append {i j m n m' n' : Nat} {xs ys : List α} (first : l.Covers i j m n xs)
    (second : l.Covers (i + m) (j + n) m' n' ys) : l.Covers i j (m + m') (n + n') (xs ++ ys) := by
  obtain ⟨lies, rfl, rfl⟩ := first
  obtain ⟨lies', rfl, rfl⟩ := second
  exact ⟨l.lies_append.2 ⟨lies, lies'⟩, by simp, by simp⟩

variable (l)

/-- The second row can stand in for the first. -/
structure Yields (xs ys : List α) : Prop where
  oldSpan_eq : l.oldSpan ys = l.oldSpan xs
  newSpan_eq : l.newSpan ys = l.newSpan xs
  lies : ∀ i j, l.Lies i j xs → l.Lies i j ys

variable {l}

theorem Yields.refl (xs : List α) : l.Yields xs xs := ⟨rfl, rfl, fun _ _ lies => lies⟩

theorem Yields.trans {xs ys zs : List α} (first : l.Yields xs ys) (second : l.Yields ys zs) :
    l.Yields xs zs :=
  ⟨second.oldSpan_eq.trans first.oldSpan_eq, second.newSpan_eq.trans first.newSpan_eq,
    fun i j lies => second.lies i j (first.lies i j lies)⟩

/-- What stands before and after a row does not matter. -/
theorem Yields.within {xs ys : List α} (yields : l.Yields xs ys) (before after : List α) :
    l.Yields (before ++ xs ++ after) (before ++ ys ++ after) := by
  refine ⟨by simp [yields.oldSpan_eq], by simp [yields.newSpan_eq], fun i j lies => ?_⟩
  simp only [lies_append, oldSpan_append, newSpan_append] at lies ⊢
  rw [yields.oldSpan_eq, yields.newSpan_eq]
  exact ⟨⟨lies.1.1, yields.lies _ _ lies.1.2⟩, lies.2⟩

theorem Covers.of_yields {i j m n : Nat} {xs ys : List α} (covers : l.Covers i j m n xs)
    (yields : l.Yields xs ys) : l.Covers i j m n ys :=
  ⟨yields.lies i j covers.lies, yields.oldSpan_eq.trans covers.oldSpan_eq,
    yields.newSpan_eq.trans covers.newSpan_eq⟩

end Layout

/-! Steps -/

namespace Edit

/-- How many lines of the old text a step takes up. -/
def oldSize (e : Edit) : Nat := if e.kind = .insert then 0 else e.length

/-- How many lines of the new text a step takes up. -/
def newSize (e : Edit) : Nat := if e.kind = .delete then 0 else e.length

/-- A step has lines, starts at its place in every text that it has lines in, and what it
keeps is the same in both. -/
structure Stands (old new : Lines) (i j : Nat) (e : Edit) : Prop where
  filled : 0 < e.length
  oldPlace : e.kind ≠ .insert → e.oldStart = i
  newPlace : e.kind ≠ .delete → e.newStart = j
  agree : e.kind = .keep → Agree old new i j e.length

end Edit

/-- How the steps of an edit script lie in the texts. -/
def steps (old new : Lines) : Layout Edit := ⟨Edit.oldSize, Edit.newSize, Edit.Stands old new⟩

section
variable {old new : Lines}

@[simp] theorem oldSize_steps (e : Edit) : (steps old new).oldSize e = e.oldSize := rfl

@[simp] theorem newSize_steps (e : Edit) : (steps old new).newSize e = e.newSize := rfl

@[simp] theorem stands_steps {i j : Nat} {e : Edit} :
    (steps old new).Stands i j e ↔ e.Stands old new i j := Iff.rfl

namespace Edit

@[simp] theorem oldSize_keep (a b n : Nat) : (Edit.mk .keep a b n).oldSize = n := rfl

@[simp] theorem oldSize_delete (a b n : Nat) : (Edit.mk .delete a b n).oldSize = n := rfl

@[simp] theorem oldSize_insert (a b n : Nat) : (Edit.mk .insert a b n).oldSize = 0 := rfl

@[simp] theorem newSize_keep (a b n : Nat) : (Edit.mk .keep a b n).newSize = n := rfl

@[simp] theorem newSize_delete (a b n : Nat) : (Edit.mk .delete a b n).newSize = 0 := rfl

@[simp] theorem newSize_insert (a b n : Nat) : (Edit.mk .insert a b n).newSize = n := rfl

variable {i j a b n : Nat}

@[simp] theorem stands_keep :
    Edit.Stands old new i j ⟨.keep, a, b, n⟩ ↔ 0 < n ∧ a = i ∧ b = j ∧ Agree old new i j n := by
  constructor
  · rintro ⟨filled, oldPlace, newPlace, agree⟩
    exact ⟨filled, oldPlace nofun, newPlace nofun, agree rfl⟩
  · rintro ⟨filled, oldPlace, newPlace, agree⟩
    exact ⟨filled, fun _ => oldPlace, fun _ => newPlace, fun _ => agree⟩

@[simp] theorem stands_delete : Edit.Stands old new i j ⟨.delete, a, b, n⟩ ↔ 0 < n ∧ a = i := by
  constructor
  · rintro ⟨filled, oldPlace, -, -⟩
    exact ⟨filled, oldPlace nofun⟩
  · rintro ⟨filled, oldPlace⟩
    exact ⟨filled, fun _ => oldPlace, fun other => absurd rfl other, fun kept => by cases kept⟩

@[simp] theorem stands_insert : Edit.Stands old new i j ⟨.insert, a, b, n⟩ ↔ 0 < n ∧ b = j := by
  constructor
  · rintro ⟨filled, -, newPlace, -⟩
    exact ⟨filled, newPlace nofun⟩
  · rintro ⟨filled, newPlace⟩
    exact ⟨filled, fun other => absurd rfl other, fun _ => newPlace, fun kept => by cases kept⟩

end Edit

end

end RoutineWatch.Diff
