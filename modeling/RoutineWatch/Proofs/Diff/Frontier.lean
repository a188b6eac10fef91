import Mathlib.Data.List.Nodup
import RoutineWatch.Proofs.Diff.Layout

/-!
# The search for a place to cut

The furthest positions of paths with one change more come from the positions before them, so
a path that runs past the end of a text has a neighbour that is at the end. Such a neighbour
meets the paths from the other end one round earlier, which is why no cut lies outside of the
texts.

- `Diff.Frontier.furthest_succ`: what one round keeps of the furthest positions
  (`Diff.Frontier.Furthest`).
- `Diff.middle?_of_start`: where a cut lies that the search finds, after any number of rounds.
-/
namespace RoutineWatch.Diff

/-- The diagonals on which paths with `d` changes end. -/
structure OnLevel (d : Nat) (k : Int) : Prop where
  low : -(d : Int) ≤ k
  high : k ≤ d
  even : ((d : Int) - k) % 2 = 0

theorem OnLevel.pred {e : Nat} {k : Int} (level : OnLevel (e + 1) k) (low : -(e : Int) ≤ k - 1)
    (high : k - 1 ≤ e) : OnLevel e (k - 1) := by
  have even := level.even
  exact ⟨low, high, by omega⟩

theorem OnLevel.succ {e : Nat} {k : Int} (level : OnLevel (e + 1) k) (low : -(e : Int) ≤ k + 1)
    (high : k + 1 ≤ e) : OnLevel e (k + 1) := by
  have even := level.even
  exact ⟨low, high, by omega⟩

theorem onLevel_of_mem_diagonals {d : Nat} {k : Int} (member : k ∈ diagonals d) : OnLevel d k := by
  obtain ⟨i, less, rfl⟩ := List.mem_map.1 member
  have bound := List.mem_range.1 less
  refine ⟨?_, ?_, ?_⟩ <;> omega

theorem mem_diagonals {d : Nat} {k : Int} (level : OnLevel d k) : k ∈ diagonals d := by
  obtain ⟨low, high, even⟩ := level
  refine List.mem_map.2 ⟨((d : Int) - k).toNat / 2, List.mem_range.2 ?_, ?_⟩ <;> omega

theorem nodup_diagonals (d : Nat) : (diagonals d).Nodup := by
  refine List.Nodup.map (fun i j same => ?_) List.nodup_range
  omega

namespace Frontier

/-- A frontier has room for the diagonals up to its offset on each side. -/
def Roomy (f : Frontier) : Prop := f.reached.size = 2 * f.offset + 2

/-- A diagonal that a frontier has room for. -/
def Holds (f : Frontier) (k : Int) : Prop := -(f.offset : Int) ≤ k ∧ k ≤ f.offset

theorem roomy_ofBound (bound : Nat) : (ofBound bound).Roomy := by
  simp [Roomy, ofBound]

theorem get_ofBound (bound : Nat) (k : Int) : (ofBound bound).get k = 0 := by
  simp [get, ofBound, Array.getD_eq_getD_getElem?, Array.getElem?_replicate]
  split <;> rfl

theorem roomy_set {f : Frontier} (roomy : f.Roomy) (k : Int) (x : Nat) : (f.set k x).Roomy := by
  simpa [Roomy, set] using roomy

@[simp] theorem offset_set (f : Frontier) (k : Int) (x : Nat) : (f.set k x).offset = f.offset := rfl

theorem get_set_self {f : Frontier} (roomy : f.Roomy) {k : Int} (held : f.Holds k) (x : Nat) :
    (f.set k x).get k = x := by
  obtain ⟨low, high⟩ := held
  have inside : (k + f.offset).toNat < f.reached.size := by
    rw [roomy]
    omega
  simp [get, set, Array.getD_eq_getD_getElem?, inside]

theorem get_set_ne {f : Frontier} {k l : Int} (held : f.Holds k) (held' : f.Holds l)
    (distinct : k ≠ l) (x : Nat) : (f.set k x).get l = f.get l := by
  obtain ⟨low, -⟩ := held
  obtain ⟨low', -⟩ := held'
  have apart : (k + f.offset).toNat ≠ (l + f.offset).toNat := by omega
  simp [get, set, Array.getD_eq_getD_getElem?, apart]

/-! Where a path starts on a diagonal -/

section
variable {f : Frontier} {e : Nat} {k : Int}

theorem succ_le_start (level : OnLevel (e + 1) k) (left : -(e : Int) ≤ k - 1) :
    f.get (k - 1) + 1 ≤ f.start (e + 1) k := by
  obtain ⟨low, high, even⟩ := level
  unfold start
  split
  · next up =>
    simp only [Bool.or_eq_true, Bool.and_eq_true, decide_eq_true_eq] at up
    omega
  · exact Nat.le_refl _

theorem le_start (level : OnLevel (e + 1) k) (right : k + 1 ≤ e) :
    f.get (k + 1) ≤ f.start (e + 1) k := by
  obtain ⟨low, high, even⟩ := level
  unfold start
  split
  · exact Nat.le_refl _
  · next across =>
    simp only [Bool.or_eq_true, Bool.and_eq_true, decide_eq_true_eq, not_or, not_and] at across
    have notTop : k ≠ ((e + 1 : Nat) : Int) := by omega
    have further := across.2 (by simpa using notTop)
    omega

/-- A path comes to a diagonal from one of the two beside it. -/
theorem start_cases (level : OnLevel (e + 1) k) :
    (-(e : Int) ≤ k - 1 ∧ k - 1 ≤ e ∧ f.start (e + 1) k = f.get (k - 1) + 1) ∨
      (-(e : Int) ≤ k + 1 ∧ k + 1 ≤ e ∧ f.start (e + 1) k = f.get (k + 1)) := by
  obtain ⟨low, high, even⟩ := level
  unfold start
  split
  · next up =>
    simp only [Bool.or_eq_true, Bool.and_eq_true, decide_eq_true_eq] at up
    refine Or.inr ⟨by omega, ?_, rfl⟩
    rcases up with bottom | ⟨notTop, _⟩
    · omega
    · have other : k ≠ ((e + 1 : Nat) : Int) := by simpa using notTop
      omega
  · next across =>
    simp only [Bool.or_eq_true, decide_eq_true_eq, not_or] at across
    exact Or.inl ⟨by omega, by omega, rfl⟩

end

/-! One round -/

section
variable {γ : Type} (d : Nat) (run : Nat → Nat → Nat) (cut? : Int → Nat → Nat → Nat → Option γ)

/-- One round of paths with `d` changes over some diagonals: each path is taken from its
start by the lines that it keeps. The round ends early with a cut. -/
def sweep : List Int → Frontier → Except γ Frontier
  | [], f => .ok f
  | k :: ks, f =>
    let x := f.start d k
    let y := ((x : Int) - k).toNat
    let f := f.set k (x + run x y)
    match cut? k x y (f.get k) with
    | some cut => .error cut
    | none => sweep ks f

/-- Where the path of a diagonal ends. -/
def finish (f : Frontier) (k : Int) : Nat :=
  f.start d k + run (f.start d k) ((f.start d k : Int) - k).toNat

theorem sweep_cons (k : Int) (ks : List Int) (f : Frontier) :
    sweep d run cut? (k :: ks) f =
      match cut? k (f.start d k) ((f.start d k : Int) - k).toNat
        ((f.set k (finish d run f k)).get k) with
      | some cut => .error cut
      | none => sweep d run cut? ks (f.set k (finish d run f k)) :=
  rfl

variable {d}

theorem start_congr {f g : Frontier} {k : Int} (left : g.get (k - 1) = f.get (k - 1))
    (right : g.get (k + 1) = f.get (k + 1)) : g.start d k = f.start d k := by
  unfold start
  rw [left, right]

/-- A round that goes through every diagonal leaves the positions of the round before it,
and no path of it is cut. A cut is at the start of a path of the round. -/
theorem sweep_cases {ks : List Int} {f : Frontier} (roomy : f.Roomy) (room : d + 1 ≤ f.offset)
    (levels : ∀ k ∈ ks, OnLevel d k) (distinct : ks.Nodup) :
    (∃ cut, sweep d run cut? ks f = .error cut ∧ ∃ k ∈ ks, ∃ x,
      cut? k (f.start d k) ((f.start d k : Int) - k).toNat x = some cut) ∨
    ∃ g, sweep d run cut? ks f = .ok g ∧ g.Roomy ∧ g.offset = f.offset ∧
      (∀ k, f.Holds k → k ∉ ks → g.get k = f.get k) ∧
      ∀ k ∈ ks, g.get k = finish d run f k ∧
        cut? k (f.start d k) ((f.start d k : Int) - k).toNat (g.get k) = none := by
  induction ks generalizing f with
  | nil => exact Or.inr ⟨f, rfl, roomy, rfl, fun _ _ _ => rfl, by simp⟩
  | cons k ks ih =>
    obtain ⟨level, levels⟩ := List.forall_mem_cons.1 levels
    obtain ⟨fresh, distinct⟩ := List.nodup_cons.1 distinct
    have held : f.Holds k := ⟨by have := level.low; omega, by have := level.high; omega⟩
    -- The paths still to come start beside positions that this one has not moved.
    have kept : ∀ l, f.Holds l → l ≠ k → (f.set k (finish d run f k)).get l = f.get l :=
      fun l held' other => get_set_ne held held' (Ne.symm other) _
    have same : ∀ l ∈ ks, (f.set k (finish d run f k)).start d l = f.start d l := by
      intro l member
      obtain ⟨low, high, even⟩ := level
      obtain ⟨low', high', even'⟩ := levels l member
      refine start_congr (kept _ ⟨?_, ?_⟩ ?_) (kept _ ⟨?_, ?_⟩ ?_) <;> omega
    have here := get_set_self roomy held (finish d run f k)
    cases found : cut? k (f.start d k) ((f.start d k : Int) - k).toNat (finish d run f k) with
    | some cut =>
      refine Or.inl ⟨cut, ?_, k, List.mem_cons_self, finish d run f k, found⟩
      rw [sweep_cons, here, found]
    | none =>
      have onward : sweep d run cut? (k :: ks) f =
          sweep d run cut? ks (f.set k (finish d run f k)) := by
        rw [sweep_cons, here, found]
      rw [onward]
      rcases ih (roomy_set roomy k _) room levels distinct with
        ⟨cut, failed, l, member, x, cuts⟩ | ⟨g, passed, roomy', offset, others, ends⟩
      · rw [same l member] at cuts
        exact Or.inl ⟨cut, failed, l, List.mem_cons_of_mem k member, x, cuts⟩
      · refine Or.inr ⟨g, passed, roomy', offset, fun l held' absent => ?_, ?_⟩
        · rw [List.mem_cons, not_or] at absent
          rw [others l held' absent.2, kept l held' absent.1]
        · intro l member
          rcases List.mem_cons.1 member with rfl | member
          · rw [others l held fresh, here]
            exact ⟨rfl, found⟩
          · have finished := ends l member
            rw [finish, same l member] at finished
            exact finished

end

/-! What is known of the furthest positions -/

/-- The furthest positions of paths with `d` changes in texts of `n` and `m` lines: none is
before the start of a text, each change takes a path at most one line past an end, and a path
past an end has a neighbour that is at this end. -/
structure Furthest (n m d : Nat) (f : Frontier) : Prop where
  low : ∀ k, OnLevel d k → k ≤ f.get k
  oldEnd : ∀ k, OnLevel d k → 2 * (f.get k : Int) ≤ 2 * n + d + k
  newEnd : ∀ k, OnLevel d k → 2 * ((f.get k : Int) - k) ≤ 2 * m + d - k
  pastOld : ∀ k, OnLevel d k → -(d : Int) ≤ k - 2 → n < f.get k → n ≤ f.get (k - 2)
  pastNew : ∀ k, OnLevel d k → k + 2 ≤ d → (m : Int) < f.get k - k →
    (m : Int) ≤ f.get (k + 2) - (k + 2)

/-- What a path keeps lies in both texts. -/
def Inside (n m : Nat) (run : Nat → Nat → Nat) : Prop :=
  ∀ x y, run x y = 0 ∨ x + run x y ≤ n ∧ y + run x y ≤ m

theorem furthest_zero {n m : Nat} {run : Nat → Nat → Nat} (inside : Inside n m run)
    {f g : Frontier} (fresh : f.get 1 = 0) (ends : ∀ k ∈ diagonals 0, g.get k = finish 0 run f k) :
    Furthest n m 0 g := by
  have zero : g.get 0 = run 0 0 := by
    rw [ends 0 (mem_diagonals ⟨by omega, by omega, by omega⟩)]
    simp [finish, start, fresh]
  have bounds : run 0 0 ≤ n ∧ run 0 0 ≤ m := by
    have cases := inside 0 0
    omega
  have only : ∀ k, OnLevel 0 k → k = 0 := by
    rintro k ⟨low, high, _⟩
    omega
  constructor <;> intro k level <;> cases only k level <;> omega

section
variable {n m e : Nat} {run : Nat → Nat → Nat} {f g : Frontier}

theorem Furthest.le_start_self (before : Furthest n m e f) {k : Int}
    (level : OnLevel (e + 1) k) : k ≤ f.start (e + 1) k := by
  rcases start_cases (f := f) level with ⟨low, high, value⟩ | ⟨low, high, value⟩
  · have bound := before.low _ (level.pred low high)
    omega
  · have bound := before.low _ (level.succ low high)
    omega

/-- A path that ends past an end of a text keeps no lines on its last diagonal. -/
theorem finish_cases (inside : Inside n m run) (before : Furthest n m e f) {k : Int}
    (level : OnLevel (e + 1) k) :
    f.start (e + 1) k ≤ finish (e + 1) run f k ∧
      (finish (e + 1) run f k = f.start (e + 1) k ∨
        finish (e + 1) run f k ≤ n ∧ (finish (e + 1) run f k : Int) - k ≤ m) := by
  have low := before.le_start_self level
  have cases := inside (f.start (e + 1) k) ((f.start (e + 1) k : Int) - k).toNat
  unfold finish
  generalize run (f.start (e + 1) k) ((f.start (e + 1) k : Int) - k).toNat = length at cases
  omega

theorem furthest_succ (inside : Inside n m run) (before : Furthest n m e f)
    (ends : ∀ k ∈ diagonals (e + 1), g.get k = finish (e + 1) run f k) :
    Furthest n m (e + 1) g := by
  have value : ∀ k, OnLevel (e + 1) k → f.start (e + 1) k ≤ g.get k ∧
      (g.get k = f.start (e + 1) k ∨ g.get k ≤ n ∧ (g.get k : Int) - k ≤ m) := by
    intro k level
    rw [ends k (mem_diagonals level)]
    exact finish_cases inside before level
  constructor
  · intro k level
    have bound := before.le_start_self level
    have := value k level
    omega
  · intro k level
    have bottom := level.low
    have cases := (value k level).2
    rcases start_cases (f := f) level with ⟨low, high, start⟩ | ⟨low, high, start⟩
    · have bound := before.oldEnd _ (level.pred low high)
      omega
    · have bound := before.oldEnd _ (level.succ low high)
      omega
  · intro k level
    have top := level.high
    have cases := (value k level).2
    rcases start_cases (f := f) level with ⟨low, high, start⟩ | ⟨low, high, start⟩
    · have bound := before.newEnd _ (level.pred low high)
      omega
    · have bound := before.newEnd _ (level.succ low high)
      omega
  · intro k level inRange past
    have top := level.high
    have even := level.even
    have beside : OnLevel (e + 1) (k - 2) := ⟨by omega, by omega, by omega⟩
    have cases := (value k level).2
    have reach := (value (k - 2) beside).1
    have passed := le_start (f := f) beside (by omega)
    rw [show k - 2 + 1 = k - 1 by omega] at passed
    -- The neighbour turns to the same side, one change later.
    have atEnd : n ≤ f.get (k - 1) := by
      rcases start_cases (f := f) level with ⟨low, high, start⟩ | ⟨low, high, start⟩
      · omega
      · have near := before.pastOld _ (level.succ low high) (by omega) (by omega)
        rwa [show k + 1 - 2 = k - 1 by omega] at near
    omega
  · intro k level inRange past
    have bottom := level.low
    have even := level.even
    have beside : OnLevel (e + 1) (k + 2) := ⟨by omega, by omega, by omega⟩
    have cases := (value k level).2
    have reach := (value (k + 2) beside).1
    have passed := succ_le_start (f := f) beside (by omega)
    rw [show k + 2 - 1 = k + 1 by omega] at passed
    have atEnd : (m : Int) ≤ f.get (k + 1) - (k + 1) := by
      rcases start_cases (f := f) level with ⟨low, high, start⟩ | ⟨low, high, start⟩
      · have near := before.pastNew _ (level.pred low high) (by omega) (by omega)
        rwa [show k - 1 + 2 = k + 1 by omega] at near
      · omega
    omega

/-- No path of the front ends past an end of a text where it could meet one from the back. -/
def Apart (n m d : Nat) (f : Frontier) : Prop :=
  ∀ k, OnLevel d k → (k - ((n : Int) - m)).natAbs + 1 ≤ d → f.get k < n ∧ (f.get k : Int) - k < m

/-- A path that can be cut starts in both texts. -/
theorem start_inside (before : Furthest n m e f) (apart : Apart n m e f) {k : Int}
    (level : OnLevel (e + 1) k) (odd : ((n : Int) - m) % 2 ≠ 0)
    (near : (k - ((n : Int) - m)).natAbs + 1 ≤ e + 1) :
    f.start (e + 1) k ≤ n ∧ (f.start (e + 1) k : Int) - k ≤ m := by
  have bottom := level.low
  have top := level.high
  have even := level.even
  rcases start_cases (f := f) level with ⟨low, high, start⟩ | ⟨low, high, start⟩
  · have oldEnd := before.oldEnd _ (level.pred low high)
    have newEnd := before.newEnd _ (level.pred low high)
    by_cases meets : (k - 1 - ((n : Int) - m)).natAbs + 1 ≤ e
    · have := apart _ (level.pred low high) meets
      omega
    · -- The diagonal is the lowest that can be met.
      have lowest : k = (n : Int) - m - e := by omega
      refine ⟨by omega, ?_⟩
      by_contra past
      have neighbour := before.pastNew _ (level.pred low high)
      rw [show k - 1 + 2 = k + 1 by omega] at neighbour
      by_cases inRange : k + 1 ≤ e
      · have := apart _ (level.succ (by omega) inRange) (by omega)
        have := neighbour inRange (by omega)
        omega
      · omega
  · have oldEnd := before.oldEnd _ (level.succ low high)
    have newEnd := before.newEnd _ (level.succ low high)
    by_cases meets : (k + 1 - ((n : Int) - m)).natAbs + 1 ≤ e
    · have := apart _ (level.succ low high) meets
      omega
    · -- The diagonal is the highest that can be met.
      have highest : k = (n : Int) - m + e := by omega
      refine ⟨?_, by omega⟩
      by_contra past
      have neighbour := before.pastOld _ (level.succ low high)
      rw [show k + 1 - 2 = k - 1 by omega] at neighbour
      by_cases inRange : -(e : Int) ≤ k - 1
      · have := apart _ (level.pred inRange (by omega)) (by omega)
        have := neighbour inRange (by omega)
        omega
      · omega

end

/-- Positions that a round with `d` changes can start from. -/
def Ready (n m : Nat) : Nat → Frontier → Prop
  | 0, f => f.get 1 = 0
  | e + 1, f => Furthest n m e f

theorem Ready.finished {n m d : Nat} {run : Nat → Nat → Nat} {f g : Frontier}
    (inside : Inside n m run) (ready : Ready n m d f)
    (ends : ∀ k ∈ diagonals d, g.get k = finish d run f k) : Furthest n m d g := by
  cases d with
  | zero => exact furthest_zero inside ready ends
  | succ e => exact furthest_succ inside ready ends

end Frontier

/-! The two directions -/

section
open Frontier
variable (old new : Lines) (w : Window)

/-- How many lines a path from the front keeps. -/
def frontRun (x y : Nat) : Nat :=
  if x < w.oldSize && y < w.newSize then
    commonPrefix old new (w.oldLo + x) (w.newLo + y) (min (w.oldSize - x) (w.newSize - y))
  else 0

/-- How many lines a path from the back keeps. -/
def backRun (x y : Nat) : Nat :=
  if x < w.oldSize && y < w.newSize then
    commonSuffix old new (w.oldHi - x) (w.newHi - y) (min (w.oldSize - x) (w.newSize - y))
  else 0

theorem inside_frontRun : Inside w.oldSize w.newSize (frontRun old new w) := by
  intro x y
  unfold frontRun
  split
  · next within =>
    simp only [Bool.and_eq_true, decide_eq_true_eq] at within
    have bound := commonPrefix_le old new (w.oldLo + x) (w.newLo + y)
      (min (w.oldSize - x) (w.newSize - y))
    omega
  · exact Or.inl rfl

theorem inside_backRun : Inside w.oldSize w.newSize (backRun old new w) := by
  intro x y
  unfold backRun
  split
  · next within =>
    simp only [Bool.and_eq_true, decide_eq_true_eq] at within
    have bound := commonSuffix_le old new (w.oldHi - x) (w.newHi - y)
      (min (w.oldSize - x) (w.newSize - y))
    omega
  · exact Or.inl rfl

/-- Where a path from the front is cut that meets one from the back. -/
def frontCut? (d : Nat) (back : Frontier) (k : Int) (x y reached : Nat) : Option (Nat × Nat) :=
  if w.delta % 2 ≠ 0 && (k - w.delta).natAbs + 1 ≤ d &&
    reached + back.get (-(k - w.delta)) ≥ w.oldSize then some (x, y)
  else none

/-- Where a path from the back is cut that meets one from the front. -/
def backCut? (d : Nat) (front : Frontier) (k : Int) (x y reached : Nat) : Option (Nat × Nat) :=
  if w.delta % 2 = 0 && (k - w.delta).natAbs ≤ d &&
    reached + front.get (-(k - w.delta)) ≥ w.oldSize then
    some (w.oldSize - (x + backRun old new w x y), w.newSize - (y + backRun old new w x y))
  else none

theorem forward_cons (d : Nat) (back : Frontier) (k : Int) (ks : List Int) (f : Frontier) :
    forward old new w d back (k :: ks) f =
      let next := f.set k (finish d (frontRun old new w) f k)
      if w.delta % 2 ≠ 0 && (k - w.delta).natAbs + 1 ≤ d &&
        next.get k + back.get (-(k - w.delta)) ≥ w.oldSize then
        .error (f.start d k, ((f.start d k : Int) - k).toNat)
      else forward old new w d back ks next :=
  rfl

theorem backward_cons (d : Nat) (front : Frontier) (k : Int) (ks : List Int) (f : Frontier) :
    backward old new w d front (k :: ks) f =
      let run := backRun old new w (f.start d k) ((f.start d k : Int) - k).toNat
      let next := f.set k (finish d (backRun old new w) f k)
      if w.delta % 2 = 0 && (k - w.delta).natAbs ≤ d &&
        next.get k + front.get (-(k - w.delta)) ≥ w.oldSize then
        .error (w.oldSize - (f.start d k + run),
          w.newSize - (((f.start d k : Int) - k).toNat + run))
      else backward old new w d front ks next :=
  rfl

theorem forward_eq_sweep (d : Nat) (back : Frontier) (ks : List Int) (f : Frontier) :
    forward old new w d back ks f = sweep d (frontRun old new w) (frontCut? w d back) ks f := by
  induction ks generalizing f with
  | nil => rfl
  | cons k ks ih =>
    rw [forward_cons, sweep_cons, ← ih, frontCut?]
    dsimp only
    split <;> rfl

theorem backward_eq_sweep (d : Nat) (front : Frontier) (ks : List Int) (f : Frontier) :
    backward old new w d front ks f =
      sweep d (backRun old new w) (backCut? old new w d front) ks f := by
  induction ks generalizing f with
  | nil => rfl
  | cons k ks ih =>
    rw [backward_cons, sweep_cons, ← ih, backCut?]
    dsimp only
    split <;> rfl

variable {old new w}

theorem frontCut?_eq_some {d : Nat} {back : Frontier} {k : Int} {x y reached : Nat}
    {cut : Nat × Nat} (cuts : frontCut? w d back k x y reached = some cut) :
    cut = (x, y) ∧ w.delta % 2 ≠ 0 ∧ (k - w.delta).natAbs + 1 ≤ d := by
  unfold frontCut? at cuts
  split at cuts
  · next meets =>
    simp only [Bool.and_eq_true, decide_eq_true_eq] at meets
    exact ⟨(Option.some.inj cuts).symm, meets.1.1, meets.1.2⟩
  · cases cuts

theorem frontCut?_eq_none {d : Nat} {back : Frontier} {k : Int} {x y reached : Nat}
    (passes : frontCut? w d back k x y reached = none) (odd : w.delta % 2 ≠ 0)
    (near : (k - w.delta).natAbs + 1 ≤ d) : reached + back.get (-(k - w.delta)) < w.oldSize := by
  unfold frontCut? at passes
  split at passes
  · cases passes
  · next apart =>
    simp only [odd, near, ne_eq, not_false_eq_true, decide_true, Bool.true_and,
      decide_eq_true_eq] at apart
    omega

/-- Paths from the front that pass those from the back end in both texts, where the two can
meet. -/
theorem apart_of_passes {d : Nat} {front back : Frontier} (odd : w.delta % 2 ≠ 0)
    (ready : Ready w.oldSize w.newSize d back)
    (passes : ∀ k ∈ diagonals d, ∃ x y, frontCut? w d back k x y (front.get k) = none) :
    Apart w.oldSize w.newSize d front := by
  intro k level near
  obtain ⟨x, y, pass⟩ := passes k (mem_diagonals level)
  have short := frontCut?_eq_none pass odd near
  cases d with
  | zero => omega
  | succ e =>
    have even := level.even
    unfold Window.delta at odd short
    have low := ready.low (-(k - ((w.oldSize : Int) - w.newSize))) ⟨by omega, by omega, by omega⟩
    omega

/-- No cut lies outside of the texts. -/
theorem middle?_inside {fuel d x y : Nat} {front back : Frontier} (roomy : front.Roomy)
    (roomy' : back.Roomy) (room : d + fuel ≤ front.offset) (room' : d + fuel ≤ back.offset)
    (ready : Ready w.oldSize w.newSize d front) (ready' : Ready w.oldSize w.newSize d back)
    (apart : ∀ e, d = e + 1 → w.delta % 2 ≠ 0 → Apart w.oldSize w.newSize e front)
    (found : middle? old new w fuel d front back = some (x, y)) :
    x ≤ w.oldSize ∧ y ≤ w.newSize := by
  induction fuel generalizing d front back with
  | zero => cases found
  | succ fuel ih =>
    rw [middle?, forward_eq_sweep] at found
    have levels : ∀ k ∈ diagonals d, OnLevel d k := fun k => onLevel_of_mem_diagonals
    rcases sweep_cases (frontRun old new w) (frontCut? w d back) roomy (by omega) levels
        (nodup_diagonals d) with
      ⟨cut, failed, k, member, reached, cuts⟩ | ⟨front', passed, roomyFront, offset, _, ends⟩
    · rw [failed] at found
      cases found
      obtain ⟨same, odd, near⟩ := frontCut?_eq_some cuts
      cases d with
      | zero => omega
      | succ e =>
        cases same
        have within := start_inside ready (apart e rfl odd) (levels k member) odd near
        omega
    · rw [passed] at found
      dsimp only at found
      rw [backward_eq_sweep] at found
      rcases sweep_cases (backRun old new w) (backCut? old new w d front') roomy' (by omega) levels
          (nodup_diagonals d) with
        ⟨cut, failed, k, member, reached, cuts⟩ | ⟨back', passed', roomyBack, offset', _, ends'⟩
      · rw [failed] at found
        cases found
        -- A path from the back is cut before its end, which is counted from the ends of the texts.
        unfold backCut? at cuts
        split at cuts
        · cases cuts
          omega
        · cases cuts
      · rw [passed'] at found
        have done := ready.finished (inside_frontRun old new w) fun k member => (ends k member).1
        have done' := ready'.finished (inside_backRun old new w) fun k member => (ends' k member).1
        refine ih (d := d + 1) roomyFront roomyBack (by omega) (by omega) done done' ?_ found
        intro e same odd
        cases same
        exact apart_of_passes odd ready' fun k member => ⟨_, _, (ends k member).2⟩

/-- The search for a cut, from its start. -/
theorem middle?_of_start {bound x y : Nat}
    (found : middle? old new w bound 0 (ofBound bound) (ofBound bound) = some (x, y)) :
    x ≤ w.oldSize ∧ y ≤ w.newSize := by
  refine middle?_inside (d := 0) (roomy_ofBound bound) (roomy_ofBound bound) ?_ ?_
    (get_ofBound bound 1) (get_ofBound bound 1) ?_ found
  · simp [ofBound]
  · simp [ofBound]
  · intro e impossible
    omega

end

end RoutineWatch.Diff
