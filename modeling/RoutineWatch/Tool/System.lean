import RoutineWatch.Run
import RoutineWatch.Script.Run
import RoutineWatch.Text.Basic

/-!
# The tools of a machine

The runner of the tools of a machine. A tool is found by the search path, runs in the
directory that it is given and may change any file. What it prints is captured or goes to
where the caller prints.

- `Machine.launch`: a tool is started and runs to its end.
- `Machine.runner`: the runner that the commands call.

Tools are scripts (`Script.Program`), and each is ended after `Machine.stepLimit` steps.
`Machine.faults` is about the caller's own writing: what a script writes, it can write.
-/
namespace RoutineWatch

/-- What tools run on. -/
structure Machine where
  tree : FileTree
  /-- The working directory of the process that calls them. -/
  here : Place
  /-- The variables of that process. -/
  settings : List (String × String)
  /-- What was printed to the standard output so far. -/
  printed : Bytes := []
  /-- What the file system refuses of what that process writes. -/
  faults : FileTree.Faults := .none

namespace Machine

/-- Bound for the steps of one tool. -/
def stepLimit : Nat := 10000000

/-- Why a tool was not started. -/
inductive StartFault where
  | os (code : Nat)
  /-- A text has a character that no argument can hold. -/
  | nulByte
deriving DecidableEq, Repr

/-- What is said of a tool that was not started. -/
def StartFault.message : StartFault → String
  | .os code => (IoCause.os code).message
  | .nulByte => "nul byte found in provided data"

/-- A tool that ran: how it ended and what it wrote. -/
structure Ran where
  ending : Script.Ending
  output : Bytes
  errors : Bytes

def value? (m : Machine) (name : String) : Option String :=
  (m.settings.find? fun v => v.1 = name).map (·.2)

/-- Where programs are looked for when nothing else is said. -/
def defaultSearchPath : String := "/bin:/usr/bin"

/-- The session that a tool starts with. -/
def session (m : Machine) (directory : Place) : Script.Session where
  tree := m.tree
  here := directory
  name := []
  arguments := []
  settings := m.settings.map fun v => (Script.ofString v.1, Script.ofString v.2)
  exported := m.settings.map fun v => Script.ofString v.1
  functions := []
  status := 0
  strict := false
  buffers := [[], []]
  output := .buffer 0
  errors := .buffer 1
  input := []

def launch (m : Machine) (program : String) (arguments : List String) (directory : Path) :
    Machine × Except StartFault Ran :=
  let hasNul (text : String) : Bool := text.toList.contains '\x00'
  if hasNul program || arguments.any hasNul || directory.bytes.contains 0 then
    (m, .error .nulByte)
  else
    match m.tree.locate? m.here directory with
    | .error code => (m, .error (.os code))
    | .ok place =>
      if m.tree.node? place ≠ some .directory then (m, .error (.os SystemError.notDirectory))
      else
        let searchPath := (m.value? "PATH").getD defaultSearchPath
        match Script.Program.find m.tree place (Script.ofString searchPath)
            (Script.ofString program) with
        | .error code => (m, .error (.os code))
        | .ok (path, found) =>
          let argv0 := match found with
            | .shell => Script.ofString program
            | _ => path
          match Script.start stepLimit argv0 found (arguments.map Script.ofString)
              (m.session place) with
          | (_, .error code) => (m, .error (.os code))
          | (s, .ok ending) => ({ m with tree := s.tree }, .ok ⟨ending, s.written 0, s.written 1⟩)

def endingText : Script.Ending → String
  | .exited status => "exit status: " ++ toString status
  | .killed signal =>
    let name := match Script.signals.find? fun e => e.2 = signal with
      | some (name, _) => " (SIG" ++ name ++ ")"
      | none => ""
    "signal: " ++ toString signal ++ name

/-- What is recorded of a call. -/
def callEvent (program : String) (arguments : List String) : Notice :=
  .debug ("running " ++ program ++ " " ++ String.intercalate " " arguments)

/-- The error of a tool that was not started. -/
def notStarted (program : String) (fault : StartFault) : Error :=
  .tool program ("could not start: " ++ fault.message)

/-- The error of a tool that failed, with what it wrote about it. -/
def failed (program : String) (ending : Script.Ending) (errors : Bytes) : Error :=
  let detail := Blank.trim (Utf8.lossy errors)
  .tool program (if detail.isEmpty then endingText ending else endingText ending ++ "\n" ++ detail)

def output (program : String) (arguments : List String) (directory : Path) (m : Machine) :
    ToolRun Machine String :=
  let run := m.launch program arguments directory
  let result : Except Error String :=
    match run.2 with
    | .error fault => .error (notStarted program fault)
    | .ok ran =>
      if ran.ending ≠ .exited 0 then .error (failed program ran.ending ran.errors)
      else
        (Utf8.decode? ran.output).mapError fun fault =>
          .tool program ("output is not utf-8: " ++ fault.message)
  ⟨result, [callEvent program arguments], run.1⟩

def status (program : String) (arguments : List String) (directory : Path) (m : Machine) :
    ToolRun Machine Unit :=
  match m.launch program arguments directory with
  | (m, .error fault) =>
    ⟨.error (notStarted program fault), [callEvent program arguments], m⟩
  | (m, .ok ran) =>
    let result : Except Error Unit :=
      if ran.ending = .exited 0 then .ok () else .error (failed program ran.ending [])
    ⟨result, [callEvent program arguments, .written ran.errors],
      { m with printed := m.printed ++ ran.output }⟩

/-- The runner of the tools of a machine. -/
def runner : ToolRunner Machine where
  output := output
  status := status
  files := Machine.tree
  faults := Machine.faults

end Machine

end RoutineWatch
