import RoutineWatch.Run

/-!
# Runners that keep a record

Any runner can be made to write down the calls it gets, each with the state that it finds;
what it answers stays the same.

- `ToolRunner.recorded`: such a runner.
-/
namespace RoutineWatch

/-- What a tool is asked to do. Its output is captured, or goes to where the caller prints. -/
structure ToolRequest where
  captured : Bool
  program : String
  arguments : List String
  directory : Path
deriving DecidableEq, Repr

/-- A call of a tool: what was asked for, in which state, and whether the tool succeeded. -/
structure ToolCall (σ : Type) where
  request : ToolRequest
  before : σ
  succeeded : Bool

/-- A runner that writes its calls down, the last one at the end. -/
def ToolRunner.recorded {σ : Type} (runner : ToolRunner σ) :
    ToolRunner (σ × List (ToolCall σ)) where
  output := fun program arguments directory s =>
    let run := runner.output program arguments directory s.1
    let call : ToolCall σ := ⟨⟨true, program, arguments, directory⟩, s.1, run.result.isOk⟩
    ⟨run.result, run.notices, (run.state, s.2 ++ [call])⟩
  status := fun program arguments directory s =>
    let run := runner.status program arguments directory s.1
    let call : ToolCall σ := ⟨⟨false, program, arguments, directory⟩, s.1, run.result.isOk⟩
    ⟨run.result, run.notices, (run.state, s.2 ++ [call])⟩
  files := fun s => runner.files s.1
  faults := fun s => runner.faults s.1

end RoutineWatch
