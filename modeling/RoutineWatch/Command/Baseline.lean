import RoutineWatch.Baseline.Lookup
import RoutineWatch.Run
import RoutineWatch.Workspace

/-!
# The command for the latest baseline

Printing the latest baseline.

- `Command.locateBaseline`: the command.

Specification, §§ 10.8 and 10.13.
-/
namespace RoutineWatch.Command

/-- What is printed of an outcome: the run that was found, on one line. -/
def outcomeText (outcome : Baseline.Outcome) : String :=
  match outcome.job? with
  | none => ""
  | some job => job.toJson.compact ++ "\n"

/-- What is noticed of an outcome. -/
def outcomeNotices : Baseline.Outcome → List Notice
  | .unavailable => [.line "no baseline available"]
  | .extracted _ archive => [.line ("extracted " ++ archive.display)]
  | _ => []

/-- Prints the latest baseline, and fetches what is asked for into the working
directory. -/
def locateBaseline {σ : Type} (runner : ToolRunner σ) (repositories : List Repository)
    (here : Place) (asked : Option Path) (options : Baseline.Options) (state : σ) :
    CommandRun × σ :=
  let cwd := Path.ofPlace here
  let opening := Workspace.openAt ⟨runner.files state, repositories, here⟩ asked cwd
  match opening.result with
  | .error e => (.failure e opening.notices (runner.files state), state)
  | .ok w =>
    let lookup := Baseline.locate runner w.config.baseline options cwd state
    (⟨.ok .success, outcomeText lookup.outcome,
        opening.notices ++ lookup.notices ++ outcomeNotices lookup.outcome,
        runner.files lookup.state⟩,
      lookup.state)

end RoutineWatch.Command
