import RoutineWatch.Git.Changes
import RoutineWatch.Registry
import RoutineWatch.Run
import RoutineWatch.TestMatrix
import RoutineWatch.Workspace

/-!
# The command for the test matrix

Printing the test matrix of a pull request.

- `Command.generateMatrix`: the command.

Specification, § 10.13.
-/
namespace RoutineWatch.Command

/-- What is noticed before the matrix of some changes is printed. -/
def matrixNotices (changes : ChangeSet) (events : List Event) (line : String) : List Notice :=
  .info (toString changes.size ++ " changed file(s)") ::
    Notice.ofEvents events ++ [.info ("output: " ++ line)]

/-- Prints the matrix of a ref, from the workspace of the working directory. -/
def generateMatrix (s : Surroundings) (asked : Option Path) (ref : Option String) : CommandRun :=
  let opening := Workspace.openAt s asked (Path.ofPlace s.here)
  match opening.result with
  | .error e => .failure e opening.notices s.tree
  | .ok w =>
    match Registry.load s.tree s.here (w.root.join w.config.matrix.definitions) with
    | .error e => .failure e opening.notices s.tree
    | .ok (registry, skipped) =>
      let notices := opening.notices ++ Notice.ofEvents skipped
      let report := PullRequest.changedFiles s.tree s.repositories s.here w.root ref
      let notices := notices ++ Notice.ofEvents report.2
      match report.1 with
      | .error e => .failure e notices s.tree
      | .ok changes =>
        let ignore : IgnoreList := ⟨w.config.matrix.ignore⟩
        let line := (TestMatrix.resolve registry ignore changes).workflowOutput
        ⟨.ok .success, line ++ "\n",
          notices ++ matrixNotices changes (TestMatrix.events registry ignore changes) line,
          s.tree⟩

end RoutineWatch.Command
