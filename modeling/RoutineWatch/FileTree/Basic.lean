import RoutineWatch.Path

/-!
# File trees

A file tree as a value: what stands at each place. A place is the list of names that
lead to it from the root of the file system; the root itself is always a directory.

Of a file the tree has its contents and whether it can be executed. Times, owners and
permissions are not in it, nor are names that two entries share.
-/
namespace RoutineWatch

/-- The names that lead from the root to an entry. -/
abbrev Place := List Bytes

/-- What can stand at a place. -/
inductive FileNode where
  | directory
  | file (contents : Bytes) (executable : Bool)
  | link (target : Path)
deriving DecidableEq, Repr

structure FileTree where
  entries : List (Place × FileNode)
deriving DecidableEq, Repr

/-- Place lists in the order of a walk that visits the entries of each directory by
name. -/
def placeLess : Place → Place → Bool
  | _, [] => false
  | [], _ :: _ => true
  | a :: as, b :: bs => bytesLess a b || (a = b && placeLess as bs)

namespace FileTree

/-- The tree that holds nothing but the root. -/
def empty : FileTree := ⟨[]⟩

/-- What stands at a place. -/
def node? (t : FileTree) (place : Place) : Option FileNode :=
  if place = [] then some .directory
  else (t.entries.find? fun e => e.1 = place).map (·.2)

/-- Puts a node at a place, instead of what stands there. -/
def put (t : FileTree) (place : Place) (node : FileNode) : FileTree :=
  if t.entries.any fun e => e.1 = place then
    ⟨t.entries.map fun e => if e.1 = place then (place, node) else e⟩
  else ⟨t.entries ++ [(place, node)]⟩

def remove (t : FileTree) (place : Place) : FileTree :=
  ⟨t.entries.filter fun e => e.1 ≠ place⟩

/-- The names in a directory, in the order in which the tree lists them. -/
def names (t : FileTree) (place : Place) : List Bytes :=
  t.entries.filterMap fun e =>
    match e.1.getLast? with
    | some name => if e.1.dropLast = place then some name else none
    | none => none

/-- What is left of a place below another one. -/
def below? (top place : Place) : Option Place :=
  if top.isPrefixOf place && top.length < place.length then some (place.drop top.length)
  else none

/-- All entries below a place, with their places from there. -/
def below (t : FileTree) (top : Place) : List (Place × FileNode) :=
  t.entries.filterMap fun e => (below? top e.1).map fun rest => (rest, e.2)

end FileTree

end RoutineWatch
