import RoutineWatch.FileTree.Access
import RoutineWatch.Log
import RoutineWatch.Text.Utf8

/-!
# Runs of commands and tools

What a run leaves: a result, the files as they stand afterwards, and what was noticed on the
way. Notices are events of the log, lines for the error output, and what tools write there.

- `ToolRunner`: how tools are called, over any type of states.
- `CommandRun`: what a command leaves.

A runner may do anything with its state and its files. A tool's output is captured, or goes to
where the caller itself prints. Specification, § 10.8.
-/
namespace RoutineWatch

/-- A piece of the error output. -/
inductive Notice where
  | event (e : Event)
  | line (text : String)
  | written (bytes : Bytes)
deriving DecidableEq, Repr

namespace Notice

def event? : Notice → Option Event
  | .event e => some e
  | _ => none

def line? : Notice → Option String
  | .line text => some text
  | _ => none

def ofEvents (events : List Event) : List Notice := events.map .event

def events (notices : List Notice) : List Event := notices.filterMap event?

def lines (notices : List Notice) : List String := notices.filterMap line?

def warn (message : String) : Notice := .event (.warn message)

def info (message : String) : Notice := .event (.info message)

def debug (message : String) : Notice := .event (.debug message)

end Notice

/-- What calling a tool yields. -/
structure ToolRun (σ α : Type) where
  result : Except Error α
  notices : List Notice
  state : σ

/-- A runner of tools, called with program, arguments and directory. -/
structure ToolRunner (σ : Type) where
  /-- Runs a tool and gives what it printed; it fails when the tool does. -/
  output : String → List String → Path → σ → ToolRun σ String
  /-- Runs a tool that prints to where the caller itself prints. -/
  status : String → List String → Path → σ → ToolRun σ Unit
  /-- The files as they stand. -/
  files : σ → FileTree
  /-- What the file system would refuse of the caller's own writing. -/
  faults : σ → FileTree.Faults := fun _ => .none

/-- What running a command leaves. -/
structure CommandRun where
  result : Except Error ExitCode
  /-- The text on the standard output. -/
  printed : String
  /-- What goes to the error output. -/
  notices : List Notice
  /-- The files as they stand afterwards. -/
  tree : FileTree

/-- A command that fails, with what it noticed so far. -/
def CommandRun.failure (e : Error) (notices : List Notice) (tree : FileTree) : CommandRun :=
  ⟨.error e, "", notices, tree⟩

end RoutineWatch
