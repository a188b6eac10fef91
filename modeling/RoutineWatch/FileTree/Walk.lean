import RoutineWatch.FileTree.Basic
import RoutineWatch.SystemError

/-!
# Following a path

Following a path through a file tree. Parts are taken one after the other; a link on
the way is replaced by the parts of its target, from the root if that is absolute. The
number of links is bounded, which is what makes a circle of links an error.

- `FileTree.follow`: where a path leads, be it to an entry, to a vacant place or to an error.
- `FileTree.locate?`: the entry that it leads to, all links followed.
-/
namespace RoutineWatch

/-- Where a path leads. -/
inductive Walked where
  /-- To an entry. -/
  | found (place : Place)
  /-- To a place in a directory at which nothing stands. -/
  | vacant (place : Place)
  /-- Nowhere, with an error number. -/
  | failed (code : Nat)
deriving DecidableEq, Repr

namespace FileTree

/-- How many links are followed for one path. -/
def linkLimit : Nat := 40

/-- The parts of a path to follow. A slash at the end asks for a directory, as a dot
does. -/
def steps (p : Path) : List Bytes :=
  let named := (Path.pieces p.bytes).filter (· ≠ [])
  if named ≠ [] && p.bytes.getLast? = some slash then named ++ [dot] else named

/-- Follows parts from a place. If `last` is not set, a link at the very end is not
followed. -/
def walk (t : FileTree) (last : Bool) (links : Nat) (here : Place) (parts : List Bytes) : Walked :=
  match parts with
  | [] => .found here
  | part :: rest =>
    if t.node? here ≠ some .directory then .failed SystemError.notDirectory
    else if part = dot then walk t last links here rest
    else if part = dotDot then walk t last links here.dropLast rest
    else
      match t.node? (here ++ [part]) with
      | none => if rest = [] then .vacant (here ++ [part]) else .failed SystemError.noEntry
      | some (.link target) =>
        if rest = [] && !last then .found (here ++ [part])
        else
          match links with
          | 0 => .failed SystemError.tooManyLinks
          | links + 1 =>
            walk t last links (if target.isAbsolute then [] else here) (steps target ++ rest)
      | some _ => walk t last links (here ++ [part]) rest
termination_by (links, parts.length)

/-- Follows a path from the directory `cwd`. The empty path leads nowhere. -/
def follow (t : FileTree) (last : Bool) (cwd : Place) (p : Path) : Walked :=
  if p.bytes = [] then .failed SystemError.noEntry
  else t.walk last linkLimit (if p.isAbsolute then [] else cwd) (steps p)

/-- The entry a path leads to, all links followed. -/
def locate? (t : FileTree) (cwd : Place) (p : Path) : Except Nat Place :=
  match t.follow true cwd p with
  | .found place => .ok place
  | .vacant _ => .error SystemError.noEntry
  | .failed code => .error code

/-- What a path leads to, all links followed. -/
def lookup? (t : FileTree) (cwd : Place) (p : Path) : Option FileNode :=
  match t.locate? cwd p with
  | .ok place => t.node? place
  | .error _ => none

def pathExists (t : FileTree) (cwd : Place) (p : Path) : Bool := (t.lookup? cwd p).isSome

def isDirectory (t : FileTree) (cwd : Place) (p : Path) : Bool :=
  t.lookup? cwd p = some .directory

def isFile (t : FileTree) (cwd : Place) (p : Path) : Bool :=
  match t.lookup? cwd p with
  | some (.file _ _) => true
  | _ => false

end FileTree

end RoutineWatch
