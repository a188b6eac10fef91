import RoutineWatch.FileTree.Walk
import RoutineWatch.Git.Tree

/-!
# Repositories

A repository as far as changes are told from it: its commits, each with its tree, and its
refs. A commit is known by its id and has the whole tree, well formed, in place of the id of
one.

- `Repository.commit?`: the commit of an id.
- `Repository.ref?`: what a ref stands for.

Blobs and trees by themselves, the index, reflogs and notes are left out, and so are shallow
and damaged repositories, in which an object can be missing that another one names; only a
parent can be missing here.
-/
namespace RoutineWatch

structure Commit where
  id : String
  parents : List String
  tree : Tree
  message : String
  wellFormed : tree.isWellFormed = true
deriving DecidableEq

/-- What a ref stands for. -/
inductive RefTarget where
  | commit (id : String)
  /-- The tree of a commit. -/
  | tree (id : String)
  /-- An annotated tag of a commit. -/
  | tag (id : String)
  /-- Another ref. -/
  | symbolic (name : String)
deriving DecidableEq, Repr

structure Repository where
  /-- The directory that holds the repository's own files. -/
  gitDir : Place
  /-- A bare repository has no work tree. -/
  bare : Bool
  commits : List Commit
  refs : List (String × RefTarget)
deriving DecidableEq

def Repository.commit? (r : Repository) (id : String) : Option Commit :=
  r.commits.find? fun c => c.id = id

def Repository.ref? (r : Repository) (name : String) : Option RefTarget :=
  (r.refs.find? fun e => e.1 = name).map (·.2)

end RoutineWatch
