import RoutineWatch.ChangeSet
import RoutineWatch.Error
import RoutineWatch.Git.Delta
import RoutineWatch.Git.Discovery
import RoutineWatch.Git.Revision
import RoutineWatch.Git.Summary
import RoutineWatch.Log
import RoutineWatch.Text.Basic
import RoutineWatch.Text.Quoted

/-!
# The files that a pull request changes

The ref of a pull request names a merge of its target and its head, so what differs between
the two parents is what it changes; any other ref changes nothing. Whether a ref is one of a
pull request is told by its letters.

- `PullRequest.changedBetween`: the deltas between the trees of two commits, collected one by
  one under the paths that they name.
- `PullRequest.changedByMerge`: the same for the parents of a merge.
- `PullRequest.changedFiles`: from a ref to the changed files.

Specification, §§ 4.4 and 10.6. What is said of a ref that cannot be resolved is one text for
all causes.
-/
namespace RoutineWatch

/-- What is known of changes, and what was recorded on the way. -/
abbrev ChangeReport := Except Error ChangeSet × List Event

namespace PullRequest

/-- Whether a ref names the merge of a pull request. -/
def isMergeRef (ref : String) : Bool := occursIn "merge".toList ref.toList

/-- An error of the repository without further words. -/
def unreadable : Error := .git "not found"

/-- Adds the path of a delta, if it has one. -/
def collect (changes : ChangeSet) (d : Delta) : ChangeSet :=
  match d.path? with
  | some path => changes.insertPath path
  | none => changes

/-- The paths at which two commits of a repository differ. -/
def changedBetween (r : Repository) (old new : String) : ChangeReport :=
  match r.commit? old, r.commit? new with
  | some old, some new =>
    let changes := (old.tree.deltas new.tree).foldl collect TextSet.empty
    (.ok changes, [.debug (toString changes.size ++ " changed files")])
  | _, _ => (.error unreadable, [])

def wrongParents (merge : Commit) : Error :=
  .invariant ("expected two-parent merge but " ++ merge.id ++ " has " ++
    toString merge.parents.length ++ " parent(s): " ++ Quoted.list merge.parents)

/-- The files that the merge of a pull request changes. -/
def changedByMerge (r : Repository) (merge : Commit) : ChangeReport :=
  let found := [Event.info ("merge " ++ merge.id ++ ": " ++ Summary.ofMessage merge.message)]
  match merge.parents with
  | [base, incoming] =>
    let report := changedBetween r base incoming
    (report.1, found ++ [.info ("base: " ++ base ++ ", incoming: " ++ incoming)] ++ report.2)
  | _ => (.error (wrongParents merge), found)

/-- The files changed by the pull request of a ref. -/
def changedFiles (t : FileTree) (repositories : List Repository) (here : Place) (root : Path)
    (ref : Option String) : ChangeReport :=
  let asked := [Event.info ("using ref `" ++ ref.getD "<none>" ++ "`")]
  match ref.filter isMergeRef with
  | none => (.ok TextSet.empty, asked ++ [.info "no diff available for ref"])
  | some ref =>
    match Repository.discover t repositories here root with
    | none => (.error unreadable, asked)
    | some found =>
      match found.repository.revision? ref with
      | none => (.error unreadable, asked)
      | some merge =>
        let report := changedByMerge found.repository merge
        (report.1, asked ++ report.2)

end PullRequest

end RoutineWatch
