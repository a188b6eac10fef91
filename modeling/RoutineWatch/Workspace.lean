import RoutineWatch.Config
import RoutineWatch.FileTree.Access
import RoutineWatch.Git.Discovery
import RoutineWatch.Run

/-!
# The workspace

The workspace: the configuration in force and the directory its paths are relative to.
The configuration is looked for upwards from the working directory, as far as the first
directory that holds a repository.

- `Workspace.findConfig`: the search.
- `Workspace.openAt`: the workspace of a working directory.

Specification, § 10.9.
-/
namespace RoutineWatch

/-- Where a command runs: the files and repositories it sees, and its working
directory. -/
structure Surroundings where
  tree : FileTree
  repositories : List Repository
  /-- The working directory of the process, from which relative paths lead. -/
  here : Place

/-- The configuration in force, and the root its paths are relative to. -/
structure Workspace where
  root : Path
  config : Config
deriving DecidableEq

/-- What opening a workspace yields. -/
structure Opening where
  result : Except Error Workspace
  /-- What is recorded, and lines about unknown names. -/
  notices : List Notice

namespace Workspace

/-- The name that marks the top of a repository. -/
def repositoryMark : Path := Path.ofString ".git"

/-- What a directory tells a search for the configuration: where it is, or that the
search ends, or nothing. -/
def verdict (s : Surroundings) (dir : Path) : Option (Option Path) :=
  let candidate := dir.join (Path.ofString Config.fileName)
  if s.tree.pathExists s.here candidate then some (some candidate)
  else if s.tree.pathExists s.here (dir.join repositoryMark) then some none
  else none

/-- Looks for the configuration from a directory upwards. -/
def findConfig (s : Surroundings) (start : Path) : Option Path :=
  (start.ancestors.findSome? (verdict s)).join

/-- The configuration file to use: the one asked for, or the one found. -/
def resolveConfig (s : Surroundings) (asked : Option Path) (cwd : Path) :
    Except Error (Option Path) :=
  match asked with
  | none => .ok (findConfig s cwd)
  | some path =>
    if s.tree.pathExists s.here path then .ok (some path)
    else .error (.config (.notFound path) (some path))

/-- The directory that configured paths are relative to: that of the configuration, or
the top of the enclosing repository, or the working directory. -/
def findRoot (s : Surroundings) (config : Option Path) (cwd : Path) : Path :=
  match config.bind Path.parent? with
  | some dir => if dir.bytes = [] then cwd else dir
  | none =>
    match (Repository.discover s.tree s.repositories s.here cwd).bind (·.workTree) with
    | some top => Path.ofPlace top
    | none => cwd

def load (s : Surroundings) (path : Path) : Except Error Config :=
  match s.tree.readText s.here path with
  | .error cause => .error (.io path cause)
  | .ok text => Config.parse text path

/-- The configuration in force, with its path if it is that of a file. -/
def configInForce (s : Surroundings) (asked : Option Path) (cwd : Path) :
    Except Error (Option Path × Config) × List Notice :=
  match resolveConfig s asked cwd with
  | .error e => (.error e, [])
  | .ok none => (.ok (none, {}), [])
  | .ok (some path) =>
    let loading : Notice := .debug ("loading config from " ++ path.display)
    match load s path with
    | .error e => (.error e, [loading])
    | .ok config => (.ok (some path, config), loading :: (config.warnings path).map .line)

def openAt (s : Surroundings) (asked : Option Path) (cwd : Path) : Opening :=
  match configInForce s asked cwd with
  | (.error e, notices) => ⟨.error e, notices⟩
  | (.ok (path, config), notices) =>
    let root := findRoot s path cwd
    ⟨.ok ⟨root, config⟩, notices ++ [.debug ("repository root: " ++ root.display)]⟩

end Workspace

end RoutineWatch
