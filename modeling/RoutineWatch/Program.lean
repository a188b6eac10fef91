import RoutineWatch.Command.ApiList
import RoutineWatch.Command.Baseline
import RoutineWatch.Command.Matrix
import RoutineWatch.CommandLine.Reader
import RoutineWatch.LogFilter
import RoutineWatch.Tool.System

/-!
# The program

The program as a function: from a machine and a command line to what is printed, what is
left in the files and the exit status.

- `Host.run`: a run.
- `Report`: what it leaves.

Specification, §§ 10.10, 10.11 and 10.13.
-/
namespace RoutineWatch

/-- What the program runs on. -/
structure Host where
  machine : Machine
  repositories : List Repository
  /-- Whether a terminal reads the standard output. -/
  terminal : Bool := false

/-- How the program ends. -/
inductive Conclusion where
  | done (code : ExitCode)
  | failed (e : Error)
  | refused (text : String)

/-- What a run of the program leaves. -/
structure Report where
  stdout : Bytes
  notices : List Notice
  conclusion : Conclusion
  tree : FileTree

namespace Host

/-- The variable that names the ref of the pull request. -/
def refVariable : String := "GITHUB_REF"

/-- The variable that filters the log. -/
def logVariable : String := "LIBM_CI_LOG"

/-- What the choice of color depends on. -/
def colorSetting (h : Host) : ColorSetting :=
  let has (name : String) : Bool := (h.machine.value? name).isSome
  ⟨has "NO_COLOR", has "COLOR", has "CI", h.terminal⟩

def isColored (h : Host) : Bool := h.colorSetting.choice ≠ .never

/-- Whether the log is colored: it is unless the variable against colors has a value. -/
def hasColoredLog (h : Host) : Bool := ((h.machine.value? "NO_COLOR").getD "").isEmpty

def logFilter (h : Host) : LogFilter := .ofVariable (h.machine.value? logVariable)

/-- What is left when a command ends. -/
def report (m : Machine) (run : CommandRun) : Report where
  stdout := m.printed ++ Utf8.encode run.printed
  notices := run.notices
  conclusion := match run.result with
    | .ok code => .done code
    | .error e => .failed e
  tree := run.tree

def runCommand (h : Host) (invocation : Invocation) : Report :=
  let m := h.machine
  let asked := invocation.config.map Path.ofString
  match invocation.command with
  | .generateMatrix =>
    report m (Command.generateMatrix ⟨m.tree, h.repositories, m.here⟩ asked (m.value? refVariable))
  | .locateBaseline options =>
    let (run, m) := Command.locateBaseline Machine.runner h.repositories m.here asked options m
    report m run
  | .updateApiList check =>
    let (run, m) :=
      Command.updateApiList Machine.runner h.repositories m.here asked check h.isColored m
    report m run

/-- A run that only shows a text. -/
def display (h : Host) (text : String) : Report :=
  ⟨Utf8.encode text, [], .done .success, h.machine.tree⟩

def run (h : Host) (arguments : List String) : Report :=
  let configValue := h.machine.value? Help.configVariable
  match CommandLine.read configValue arguments with
  | .help text => h.display text
  | .version text => h.display text
  | .refuse fault => ⟨[], [], .refused (fault.message configValue), h.machine.tree⟩
  | .run invocation => h.runCommand invocation

end Host

namespace Report

def exitCode (r : Report) : ExitCode :=
  match r.conclusion with
  | .done code => code
  | .failed e => e.exitCode
  | .refused _ => .configError

/-- The line for an error that ends the program. -/
def errorLine (e : Error) : String := Help.program ++ ": " ++ e.message

/-- A notice on the error output; events come with the time given. -/
def noticeBytes (f : LogFilter) (colored : Bool) (time : String) : Notice → Bytes
  | .event e => if f.shows e then Utf8.encode (e.line colored time ++ "\n") else []
  | .line text => Utf8.encode (text ++ "\n")
  | .written bytes => bytes

/-- What notices come to on the error output. -/
def noticesBytes (r : Report) (f : LogFilter) (colored : Bool) (time : String) : Bytes :=
  r.notices.flatMap (noticeBytes f colored time)

def stderr (r : Report) (f : LogFilter) (colored : Bool) (time : String) : Bytes :=
  r.noticesBytes f colored time ++
    match r.conclusion with
    | .done _ => []
    | .failed e => Utf8.encode (errorLine e ++ "\n")
    | .refused text => Utf8.encode text

end Report

end RoutineWatch
