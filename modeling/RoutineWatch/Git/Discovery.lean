import RoutineWatch.Git.Repository

/-!
# Finding the repository of a directory

Finding the repository of a directory: the nearest directory at or above it that holds
one, or is a bare one. A directory holds a repository under the name `.git`, itself or
by a file that tells where it is.

- `Repository.discover`: the search.

The search crosses file systems and looks at no variables. That a repository should belong to
the user is left out.
-/
namespace RoutineWatch

namespace Path

/-- The path of a place from the root. -/
def ofPlace (place : Place) : Path := ⟨slash :: joinParts place⟩

end Path

/-- A repository with the work tree it was found by. -/
structure FoundRepository where
  repository : Repository
  workTree : Option Place
deriving DecidableEq

namespace Repository

/-- The name under which a work tree holds its repository. -/
def markName : Bytes := Utf8.encode ".git"

/-- The words before the path in a file that tells where the repository is. -/
def pointerMark : Bytes := Utf8.encode "gitdir: "

/-- The path in a file that tells where the repository is. -/
def pointer? (contents : Bytes) : Option Path :=
  if pointerMark.isPrefixOf contents then
    let rest := contents.drop pointerMark.length
    some ⟨(rest.reverse.dropWhile fun b => b = 10 || b = 13).reverse⟩
  else none

/-- The repository whose own files are at a place. -/
def at? (repositories : List Repository) (place : Place) : Option Repository :=
  repositories.find? fun r => r.gitDir = place

/-- The repository that a directory holds or is. -/
def ofDirectory? (t : FileTree) (repositories : List Repository) (dir : Place) :
    Option FoundRepository :=
  let mark := dir ++ [markName]
  let held : Option FoundRepository :=
    match t.follow true dir ⟨markName⟩ with
    | .found place =>
      match t.node? place with
      | some (.file contents _) => do
        let path ← pointer? contents
        match t.follow true dir path with
        | .found gitDir => (at? repositories gitDir).map fun r => ⟨r, some dir⟩
        | _ => none
      | _ => (at? repositories place).map fun r =>
        ⟨r, if r.bare then none else if place = mark then some dir else some place.dropLast⟩
    | _ => none
  match held with
  | some found => some found
  | none =>
    (at? repositories dir).map fun r => ⟨r, if r.bare then none else some dir.dropLast⟩

/-- A place and those above it, nearest first. -/
def placesUp (place : Place) : List Place :=
  ((List.range (place.length + 1)).map fun n => place.take n).reverse

/-- The repository that a directory belongs to. The directory itself must be there. -/
def discover (t : FileTree) (repositories : List Repository) (here : Place) (dir : Path) :
    Option FoundRepository :=
  match t.locate? here dir with
  | .error _ => none
  | .ok place => (placesUp place).findSome? (ofDirectory? t repositories)

end Repository

end RoutineWatch
