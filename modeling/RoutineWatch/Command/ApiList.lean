import RoutineWatch.DocIndex
import RoutineWatch.Drift
import RoutineWatch.Run
import RoutineWatch.SourceScan
import RoutineWatch.Workspace

/-!
# The command for the generated files

Regenerating the list of public functions and the registry, or comparing the checked-in
files with what would be written.

- `Artifact.writeAll`: the files are written, one after the other, up to one that fails.
- `Artifact.compareAll`: the files are compared.
- `Command.updateApiList`: the command.

Specification, §§ 6 and 10.13.
-/
namespace RoutineWatch

structure Artifact where
  path : Path
  contents : String
deriving DecidableEq, Repr

namespace Artifact

/-- The generated files of a workspace: the function list, then the registry. -/
def ofRegistry (w : Workspace) (registry : Registry) : List Artifact := [
  ⟨w.root.join w.config.api.functionList, Registry.functionList registry⟩,
  ⟨w.root.join w.config.matrix.definitions, Registry.render registry⟩]

/-- Makes the directory that a file stands in. -/
def makeWay (t : FileTree) (faults : FileTree.Faults) (here : Place) (a : Artifact) :
    FileTree × Except Error Unit :=
  match a.path.parent? with
  | none => (t, .ok ())
  | some parent =>
    let (t, made) := t.layDirectories faults here parent.bytes.length parent
    (t, made.mapError fun cause => .io parent cause)

/-- Writes a file and the directories on the way to it. The tree is given back also when
writing fails. -/
def write (t : FileTree) (faults : FileTree.Faults) (here : Place) (a : Artifact) :
    FileTree × Except Error Unit :=
  match makeWay t faults here a with
  | (t, .error e) => (t, .error e)
  | (t, .ok ()) =>
    let (t, written) := t.writeBytes faults here a.path (Utf8.encode a.contents)
    (t, written.mapError fun cause => .io a.path cause)

/-- Writes files in order, up to one that fails. -/
def writeAll (t : FileTree) (faults : FileTree.Faults) (here : Place) :
    List Artifact → FileTree × Except Error Unit × List Notice
  | [] => (t, .ok (), [])
  | a :: rest =>
    let writing : Notice := .info ("writing " ++ a.path.display)
    match write t faults here a with
    | (t, .error e) => (t, .error e, [writing])
    | (t, .ok ()) =>
      let (t, result, notices) := writeAll t faults here rest
      (t, result, writing :: notices)

/-- The checked-in contents of a file; one that is not there is empty. -/
def checkedIn (t : FileTree) (here : Place) (a : Artifact) : Except Error String :=
  match t.readText here a.path with
  | .ok text => .ok text
  | .error cause => if cause = .os SystemError.noEntry then .ok "" else .error (.io a.path cause)

/-- What is printed of a file that is out of date. -/
def staleSection (colored : Bool) (a : Artifact) (d : Drift) : String :=
  a.path.display ++ ":\n" ++ d.render colored

/-- A comparison: the files that are out of date, what is printed, and the error that
ended it, if one did. -/
structure Comparison where
  stale : List Path
  printed : String
  failure : Option Error

/-- Compares files in order, up to one that cannot be read. -/
def compareAll (t : FileTree) (here : Place) (colored : Bool) : List Artifact → Comparison
  | [] => ⟨[], "", none⟩
  | a :: rest =>
    match checkedIn t here a with
    | .error e => ⟨[], "", some e⟩
    | .ok actual =>
      let others := compareAll t here colored rest
      match Drift.check actual a.contents with
      | none => others
      | some d =>
        { others with
          stale := a.path :: others.stale
          printed := staleSection colored a d ++ others.printed }

end Artifact

namespace Command

def staleText : String := "mismatched function list"

def freshText : String := "output matches expected; success\n"

def checkArtifacts (t : FileTree) (here : Place) (colored : Bool) (artifacts : List Artifact)
    (notices : List Notice) : CommandRun :=
  let compared := Artifact.compareAll t here colored artifacts
  match compared.failure with
  | some e => ⟨.error e, compared.printed, notices, t⟩
  | none =>
    let printed := compared.printed ++ if colored then String.ofList Style.reset else ""
    match compared.stale with
    | [] => ⟨.ok .success, printed ++ freshText, notices, t⟩
    | path :: _ => ⟨.error (.drift path), printed, notices ++ [.line staleText], t⟩

def writeArtifacts (t : FileTree) (faults : FileTree.Faults) (here : Place)
    (artifacts : List Artifact) (notices : List Notice) : CommandRun :=
  let (t, result, more) := Artifact.writeAll t faults here artifacts
  ⟨result.map fun _ => .success, "", notices ++ more, t⟩

/-- The registry of a workspace, from the documentation index and the sources. -/
def extractRegistry {σ : Type} (runner : ToolRunner σ) (here : Place) (w : Workspace)
    (state : σ) : ToolRun σ Registry :=
  let build := DocIndex.build runner w.root w.config.api.docArguments state
  match build.result with
  | .error e => ⟨.error e, build.notices, build.state⟩
  | .ok index =>
    let (sources, events) :=
      SourceScan.load (runner.files build.state) here w.root w.config.api.archDir
    let notices := build.notices ++ Notice.ofEvents events
    match sources with
    | .error e => ⟨.error e, notices, build.state⟩
    | .ok files =>
      let registry := Extraction.extract w.config.api.rule index files
      ⟨.ok registry,
        notices ++ Notice.ofEvents (Extraction.events w.config.api.rule index files) ++
          [.info ("collected " ++ toString registry.size ++ " routines")],
        build.state⟩

/-- Regenerates the checked-in files, or only compares them. -/
def updateApiList {σ : Type} (runner : ToolRunner σ) (repositories : List Repository)
    (here : Place) (asked : Option Path) (check colored : Bool) (state : σ) : CommandRun × σ :=
  let opening :=
    Workspace.openAt ⟨runner.files state, repositories, here⟩ asked (Path.ofPlace here)
  match opening.result with
  | .error e => (.failure e opening.notices (runner.files state), state)
  | .ok w =>
    let extraction := extractRegistry runner here w state
    let notices := opening.notices ++ extraction.notices
    let tree := runner.files extraction.state
    match extraction.result with
    | .error e => (.failure e notices tree, extraction.state)
    | .ok registry =>
      let artifacts := Artifact.ofRegistry w registry
      (if check then checkArtifacts tree here colored artifacts notices
        else writeArtifacts tree (runner.faults extraction.state) here artifacts notices,
        extraction.state)

end Command

end RoutineWatch
