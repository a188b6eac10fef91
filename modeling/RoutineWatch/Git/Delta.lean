import RoutineWatch.Git.Tree

/-!
# The deltas between two trees

Two trees are compared by walking both at once. The paths of their leaves come up in order,
so the smaller one of two paths that come up is in its tree alone; a path that comes up in
both is compared by kind and contents.

- `Delta.between`: the deltas of two walks.
- `Delta.path?`: the path that is taken from a delta, of its new side or else of its old one.

Both sides of a delta name the path, also the side on which there is no leaf. Renames and
copies are not looked for, and nothing is said of leaves that are the same.
-/
namespace RoutineWatch

inductive DeltaStatus where
  | added
  | deleted
  | modified
deriving DecidableEq, Repr

/-- A side of a delta: a path, if it is known, and the leaf there, if there is one. -/
structure DeltaSide where
  path : Option Bytes
  leaf : Option Leaf
deriving DecidableEq, Repr

/-- A difference at a path. -/
structure Delta where
  status : DeltaStatus
  old : DeltaSide
  new : DeltaSide
deriving DecidableEq, Repr

namespace Delta

def added (path : Bytes) (leaf : Leaf) : Delta :=
  ⟨.added, ⟨some path, none⟩, ⟨some path, some leaf⟩⟩

def deleted (path : Bytes) (leaf : Leaf) : Delta :=
  ⟨.deleted, ⟨some path, some leaf⟩, ⟨some path, none⟩⟩

def modified (path : Bytes) (old new : Leaf) : Delta :=
  ⟨.modified, ⟨some path, some old⟩, ⟨some path, some new⟩⟩

/-- The deltas of a path that is in both trees. A leaf that becomes one of another type is
deleted and added. -/
def matched (path : Bytes) (old new : Leaf) : List Delta :=
  if old.kind.type ≠ new.kind.type then [deleted path old, added path new]
  else if old = new then []
  else [modified path old new]

/-- The deltas of two walks. -/
def between : List (Bytes × Leaf) → List (Bytes × Leaf) → List Delta
  | [], news => news.map fun new => added new.1 new.2
  | old :: olds, [] => (old :: olds).map fun old => deleted old.1 old.2
  | old :: olds, new :: news =>
    if bytesLess old.1 new.1 then deleted old.1 old.2 :: between olds (new :: news)
    else if bytesLess new.1 old.1 then added new.1 new.2 :: between (old :: olds) news
    else matched old.1 old.2 new.2 ++ between olds news
termination_by olds news => olds.length + news.length

/-- The path of a delta. -/
def path? (d : Delta) : Option Path := (d.new.path.or d.old.path).map Path.mk

end Delta

/-- The deltas from one tree to another. -/
def Tree.deltas (old new : Tree) : List Delta := Delta.between (old.walk []) (new.walk [])

end RoutineWatch
