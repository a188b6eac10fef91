/-!
# Edit scripts

Edit scripts between two sequences of lines: the search for a short one, by the greedy
method from both ends, and its tidying, which slides every change as far up and then as
far down as the surrounding lines allow so that changes meet and merge.

- `Diff.middle?`: where a shortest path between two texts can be cut.
- `Diff.search`: the script of a window.
- `Diff.tidy`: its changes slid together.
- `Diff.script`: the script of two texts.

The search has no time limit.
-/
namespace RoutineWatch.Diff

/-- A line with its end. -/
abbrev DiffLine := List Char

/-- The lines of a text, by position. -/
abbrev Lines := Array DiffLine

/-- What a step of an edit script does with its lines. -/
inductive Kind where
  | keep
  | delete
  | insert
deriving DecidableEq, Repr

/-- A step of an edit script. A deletion has no lines in the new text and an insertion
none in the old one; the start on that side only tells where the step once stood. -/
structure Edit where
  kind : Kind
  oldStart : Nat
  newStart : Nat
  length : Nat
deriving DecidableEq, Repr

namespace Edit

/-- Where the step's lines of the old text end. -/
def oldEnd (e : Edit) : Nat := if e.kind = .insert then e.oldStart else e.oldStart + e.length

/-- Where the step's lines of the new text end. -/
def newEnd (e : Edit) : Nat := if e.kind = .delete then e.newStart else e.newStart + e.length

def up (e : Edit) (n : Nat) : Edit :=
  { e with oldStart := e.oldStart - n, newStart := e.newStart - n }

def down (e : Edit) (n : Nat) : Edit :=
  { e with oldStart := e.oldStart + n, newStart := e.newStart + n }

/-- The step with `n` more lines at its end. -/
def grow (e : Edit) (n : Nat) : Edit := { e with length := e.length + n }

/-- The step without its last `n` lines. -/
def shrink (e : Edit) (n : Nat) : Edit := { e with length := e.length - n }

end Edit

/-! Common ends -/

/-- How many lines of `old` from `i` and of `new` from `j` agree, at most `count`. -/
def commonPrefix (old new : Lines) (i j : Nat) : Nat → Nat
  | 0 => 0
  | count + 1 =>
    if old.getD i [] = new.getD j [] then commonPrefix old new (i + 1) (j + 1) count + 1 else 0

/-- How many lines of `old` before `i` and of `new` before `j` agree, at most `count`. -/
def commonSuffix (old new : Lines) (i j : Nat) : Nat → Nat
  | 0 => 0
  | count + 1 =>
    if old.getD (i - 1) [] = new.getD (j - 1) [] then
      commonSuffix old new (i - 1) (j - 1) count + 1
    else 0

/-! The search -/

/-- A part of each text: from `oldLo` up to `oldHi`, and from `newLo` up to `newHi`. -/
structure Window where
  oldLo : Nat
  oldHi : Nat
  newLo : Nat
  newHi : Nat
deriving Repr

namespace Window

def oldSize (w : Window) : Nat := w.oldHi - w.oldLo

def newSize (w : Window) : Nat := w.newHi - w.newLo

/-- By how many lines the old part is longer. -/
def delta (w : Window) : Int := (w.oldSize : Int) - (w.newSize : Int)

end Window

/-- Furthest positions reached on the diagonals around zero. -/
structure Frontier where
  offset : Nat
  reached : Array Nat
deriving Repr

namespace Frontier

/-- A frontier with room for `bound` diagonals on each side. -/
def ofBound (bound : Nat) : Frontier := ⟨bound, Array.replicate (2 * bound + 2) 0⟩

def get (f : Frontier) (k : Int) : Nat := f.reached.getD (k + f.offset).toNat 0

def set (f : Frontier) (k : Int) (x : Nat) : Frontier :=
  { f with reached := f.reached.setIfInBounds (k + f.offset).toNat x }

/-- Where a path with `d` changes starts on diagonal `k`: it comes from the neighbour
that reached further. -/
def start (f : Frontier) (d : Nat) (k : Int) : Nat :=
  if k = -(d : Int) || (k ≠ d && f.get (k - 1) < f.get (k + 1)) then f.get (k + 1)
  else f.get (k - 1) + 1

end Frontier

/-- The diagonals of paths with `d` changes, from the highest down. -/
def diagonals (d : Nat) : List Int := (List.range (d + 1)).map fun (i : Nat) => (d : Int) - 2 * (i : Int)

/-- Extends the paths from the front by one change on each diagonal. Stops with the
start of the last run of kept lines if a path meets one from the back. -/
def forward (old new : Lines) (w : Window) (d : Nat) (back : Frontier) :
    List Int → Frontier → Except (Nat × Nat) Frontier
  | [], f => .ok f
  | k :: ks, f =>
    let x0 := f.start d k
    let y0 := ((x0 : Int) - k).toNat
    let run :=
      if x0 < w.oldSize && y0 < w.newSize then
        commonPrefix old new (w.oldLo + x0) (w.newLo + y0)
          (min (w.oldSize - x0) (w.newSize - y0))
      else 0
    let f := f.set k (x0 + run)
    if w.delta % 2 ≠ 0 && (k - w.delta).natAbs + 1 ≤ d &&
        f.get k + back.get (-(k - w.delta)) ≥ w.oldSize then .error (x0, y0)
    else forward old new w d back ks f

/-- Extends the paths from the back by one change on each diagonal. Stops with the
start of the last run of kept lines if a path meets one from the front. -/
def backward (old new : Lines) (w : Window) (d : Nat) (front : Frontier) :
    List Int → Frontier → Except (Nat × Nat) Frontier
  | [], f => .ok f
  | k :: ks, f =>
    let x0 := f.start d k
    let y0 := ((x0 : Int) - k).toNat
    let run :=
      if x0 < w.oldSize && y0 < w.newSize then
        commonSuffix old new (w.oldHi - x0) (w.newHi - y0)
          (min (w.oldSize - x0) (w.newSize - y0))
      else 0
    let f := f.set k (x0 + run)
    if w.delta % 2 = 0 && (k - w.delta).natAbs ≤ d &&
        f.get k + front.get (-(k - w.delta)) ≥ w.oldSize then
      .error (w.oldSize - (x0 + run), w.newSize - (y0 + run))
    else backward old new w d front ks f

/-- Looks for a place where a shortest path can be cut, with `d` changes from each end
and more. -/
def middle? (old new : Lines) (w : Window) :
    Nat → Nat → Frontier → Frontier → Option (Nat × Nat)
  | 0, _, _, _ => none
  | fuel + 1, d, front, back =>
    match forward old new w d back (diagonals d) front with
    | .error cut => some cut
    | .ok front =>
      match backward old new w d front (diagonals d) back with
      | .error cut => some cut
      | .ok back => middle? old new w fuel (d + 1) front back

/-- A step, unless it has no lines. -/
def step (kind : Kind) (oldStart newStart length : Nat) : List Edit :=
  if length = 0 then [] else [⟨kind, oldStart, newStart, length⟩]

/-- An edit script for a window. Equal lines at both ends are kept; what is between is
cut in two. `fuel` bounds the depth of the cuts. -/
def search (old new : Lines) : Nat → Window → List Edit
  | 0, w =>
    step .delete w.oldLo w.newLo w.oldSize ++ step .insert w.oldHi w.newLo w.newSize
  | fuel + 1, w =>
    let before := commonPrefix old new w.oldLo w.newLo (min w.oldSize w.newSize)
    let w1 : Window := ⟨w.oldLo + before, w.oldHi, w.newLo + before, w.newHi⟩
    let after := commonSuffix old new w1.oldHi w1.newHi (min w1.oldSize w1.newSize)
    let w2 : Window := ⟨w1.oldLo, w1.oldHi - after, w1.newLo, w1.newHi - after⟩
    let between :=
      if w2.oldSize = 0 || w2.newSize = 0 then
        step .delete w2.oldLo w2.newLo w2.oldSize ++ step .insert w2.oldLo w2.newLo w2.newSize
      else
        let bound := (w2.oldSize + w2.newSize + 1) / 2 + 1
        match middle? old new w2 bound 0 (Frontier.ofBound bound) (Frontier.ofBound bound) with
        | some (x, y) =>
          search old new fuel ⟨w2.oldLo, w2.oldLo + x, w2.newLo, w2.newLo + y⟩ ++
            search old new fuel ⟨w2.oldLo + x, w2.oldHi, w2.newLo + y, w2.newHi⟩
        | none =>
          step .delete w2.oldLo w2.newLo w2.oldSize ++ step .insert w2.oldLo w2.newLo w2.newSize
    step .keep w.oldLo w.newLo before ++ between ++ step .keep w2.oldHi w2.newHi after

/-! Tidying -/

/-- A script with one step singled out; the steps before it are listed backwards. -/
structure Focus where
  before : List Edit
  here : Edit
  after : List Edit
deriving Repr

def Focus.script (f : Focus) : List Edit := f.before.reverse ++ f.here :: f.after

/-- Room that the steps of a list leave for sliding. -/
def room : List Edit → Nat
  | [] => 0
  | e :: steps => e.length + 1 + room steps

/-- How far a step can go up into the kept lines before it. Only insertions move. -/
def slack (old new : Lines) (kept here : Edit) : Nat :=
  if here.kind = .insert then
    commonSuffix old new kept.oldEnd here.newEnd (min kept.length here.length)
  else 0

/-- How far a step can go down into the kept lines after it. -/
def slackBelow (old new : Lines) (kept here : Edit) : Nat :=
  if here.kind = .insert then
    commonPrefix old new kept.oldStart here.newStart (min kept.length here.length)
  else 0

/-- The kept lines after a step, `n` lines longer at their upper end. -/
def keepMoreBelow (kept here : Edit) (n : Nat) : List Edit → List Edit
  | e :: es =>
    if e.kind = .keep then (e.up n).grow n :: es
    else ⟨.keep, kept.oldEnd - n, here.newEnd - n, n⟩ :: e :: es
  | [] => [⟨.keep, kept.oldEnd - n, here.newEnd - n, n⟩]

/-- The kept lines before a step, `n` lines longer at their lower end. -/
def keepMoreAbove (kept here : Edit) (n : Nat) : List Edit → List Edit
  | e :: es =>
    if e.kind = .keep then e.grow n :: es
    else ⟨.keep, kept.oldStart, here.newStart, n⟩ :: e :: es
  | [] => [⟨.keep, kept.oldStart, here.newStart, n⟩]

/-- Slides the step in focus up: through kept lines that repeat it, past changes of the
other kind, and into a change of its own kind. -/
def slideUp (old new : Lines) (f : Focus) : Focus :=
  match _h : f.before with
  | [] => f
  | e :: es =>
    if e.kind = .keep then
      if e.length = 0 then slideUp old new ⟨es, f.here, f.after⟩
      else
        let n := min (slack old new e f.here) e.length
        if n = 0 then f
        else
          let after := keepMoreBelow e f.here n f.after
          if n = e.length then slideUp old new ⟨es, f.here.up n, after⟩
          else slideUp old new ⟨e.shrink n :: es, f.here.up n, after⟩
    else if e.kind = f.here.kind then
      slideUp old new ⟨es, e.grow f.here.length, f.after⟩
    else slideUp old new ⟨es, f.here, e :: f.after⟩
termination_by room f.before
decreasing_by
  all_goals simp [_h, room, Edit.shrink] at *
  all_goals omega

/-- Slides the step in focus down, in the same way. -/
def slideDown (old new : Lines) (f : Focus) : Focus :=
  match _h : f.after with
  | [] => f
  | e :: es =>
    if e.kind = .keep then
      if e.length = 0 then slideDown old new ⟨f.before, f.here, es⟩
      else
        let n := min (slackBelow old new e f.here) e.length
        if n = 0 then f
        else
          let before := keepMoreAbove e f.here n f.before
          if n = e.length then slideDown old new ⟨before, f.here.down n, es⟩
          else slideDown old new ⟨before, f.here.down n, (e.down n).shrink n :: es⟩
    else if e.kind = f.here.kind then
      slideDown old new ⟨f.before, f.here.grow e.length, es⟩
    else slideDown old new ⟨e :: f.before, f.here, es⟩
termination_by room f.after
decreasing_by
  all_goals simp [_h, room, Edit.shrink, Edit.down] at *
  all_goals omega

/-- Slides every step of one kind, from the first on. `fuel` bounds the number of
steps looked at. -/
def slideAll (old new : Lines) (kind : Kind) : Nat → List Edit → List Edit → List Edit
  | 0, before, after => before.reverse ++ after
  | _ + 1, before, [] => before.reverse
  | fuel + 1, before, e :: es =>
    if e.kind = kind then
      let f := slideDown old new (slideUp old new ⟨before, e, es⟩)
      slideAll old new kind fuel (f.here :: f.before) f.after
    else slideAll old new kind fuel (e :: before) es

/-- A script with its changes slid together: first the deletions, then the
insertions. -/
def tidy (old new : Lines) (script : List Edit) : List Edit :=
  let fuel := (room script + 1) * (room script + 1)
  slideAll old new .insert fuel [] (slideAll old new .delete fuel [] script)

def script (old new : Lines) : List Edit :=
  tidy old new (search old new (old.size + new.size + 1) ⟨0, old.size, 0, new.size⟩)

end RoutineWatch.Diff
