import RoutineWatch.FileTree.Walk
import RoutineWatch.Glob.Reader

/-!
# The newest archive

The newest of the downloaded archives. Each one stands in a directory of its own, and
both names match the glob; the newest is the one with the greatest names.

- `Archive.less`: the order.
- `Archive.newestListed?`: the newest archive that a listing shows.
- `Archive.newest?`: the same with the tree's own listing.

Specification, § 10.8. A directory that cannot be listed has no archives (`Listing`).
-/
namespace RoutineWatch

/-- The names that are listed for a directory, in any order. Of one that cannot be read there
are none. -/
abbrev Listing := Place → List Bytes

/-- An archive: the name of its directory and its own name. -/
structure Archive where
  directory : Bytes
  name : Bytes
deriving DecidableEq, Repr

namespace Archive

/-- The archive's path from the directory that was searched. -/
def path (a : Archive) : Path := (⟨a.directory⟩ : Path).child a.name

/-- Order by the name of the directory, then by the name of the file. -/
def less (a b : Archive) : Bool :=
  bytesLess a.directory b.directory ||
    (a.directory = b.directory && bytesLess a.name b.name)

/-- The matching names in the directory that a path leads to. -/
def matchingNames (list : Listing) (t : FileTree) (g : Glob) (dir : Path) : List Bytes :=
  match t.locate? [] dir with
  | .error _ => []
  | .ok place => if t.node? place = some .directory then (list place).filter g.accepts else []

/-- The archives in a directory of the working directory. -/
def inDirectory (list : Listing) (t : FileTree) (g : Glob) (cwd : Path) (directory : Bytes) :
    List Archive :=
  let dir := cwd.child directory
  if t.isDirectory [] dir then
    ((matchingNames list t g dir).filter fun name => t.isFile [] (dir.child name)).map
      fun name => ⟨directory, name⟩
  else []

/-- All archives of the directories in a directory. -/
def candidates (list : Listing) (t : FileTree) (g : Glob) (cwd : Path) : List Archive :=
  (matchingNames list t g cwd).flatMap (inDirectory list t g cwd)

def greatest? (archives : List Archive) : Option Archive :=
  archives.foldl
    (fun best a =>
      match best with
      | none => some a
      | some b => if less b a then some a else some b)
    none

/-- The newest archive among those that a listing shows. -/
def newestListed? (list : Listing) (t : FileTree) (g : Glob) (cwd : Path) : Option Archive :=
  greatest? (candidates list t g cwd)

def newest? (t : FileTree) (g : Glob) (cwd : Path) : Option Archive :=
  newestListed? t.names t g cwd

end Archive

end RoutineWatch
