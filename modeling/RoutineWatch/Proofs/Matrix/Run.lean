import Mathlib
import RoutineWatch.Program
import RoutineWatch.Proofs.Git.Changes
import RoutineWatch.Proofs.Matrix.Line
import RoutineWatch.Proofs.Matrix.Resolve
import RoutineWatch.Proofs.Program.Ending
import RoutineWatch.Proofs.Registry.Stored
import RoutineWatch.Proofs.Text.ByteOrder

/-!
# Printing the test matrix

From the command line to the standard output. A run that fails prints nothing. One that
succeeds prints one line, whose lists are told from the definitions text, the ignored
prefixes and the two trees that the ref compares.

- `Tested`: which routines are to be tested.
- `Command.generateMatrix_cases`: a run fails without a word or prints a matrix.
- `Host.run_generateMatrix`: the whole program.
-/
namespace RoutineWatch

/-- The definitions text has a routine of this name and type, with a source that no
ignored prefix starts and at which the two trees differ. -/
def Tested (text : String) (ignored : List String) (old new : Commit) (name : String)
    (type : FloatType) : Prop :=
  name ≠ Registry.commentKey ∧ ∃ value routine, Json.lastValue? text name = some value ∧
    Routine.ofJson value = .ok routine ∧ routine.type = type ∧
    ∃ source ∈ routine.sources, (∀ start ∈ ignored, ¬ start.toList <+: source.toList) ∧
      old.DiffersAt new source

/-- Listed names are told from the definitions text. -/
theorem TestMatrix.mem_changed_iff_tested {text : String} {registry : Registry}
    {events : List Event} (parsed : Registry.parse text = .ok (registry, events))
    {changes : ChangeSet} {old new : Commit}
    (differ : ∀ path, path ∈ changes ↔ old.DiffersAt new path)
    (ignored : List String) (name : String) (type : FloatType) :
    name ∈ (resolve registry ⟨ignored⟩ changes).changed type ↔
      Tested text ignored old new name type := by
  unfold Tested
  rw [mem_changed]
  simp only [IgnoreList.ignores_eq_false, differ]
  constructor
  · rintro ⟨routine, entry, same, counts⟩
    obtain ⟨other, value, last, decodes⟩ := (Registry.get?_parse parsed name routine).1 entry
    exact ⟨other, value, routine, last, decodes, same, counts⟩
  · rintro ⟨other, value, routine, last, decodes, same, counts⟩
    exact ⟨routine, (Registry.get?_parse parsed name routine).2 ⟨other, value, last, decodes⟩,
      same, counts⟩

/-- What is loaded was read from a text. -/
theorem Registry.parse_of_load {t : FileTree} {here : Place} {path : Path} {registry : Registry}
    {events : List Event} (loaded : Registry.load t here path = .ok (registry, events)) :
    ∃ text, t.readText here path = .ok text ∧ Registry.parse text = .ok (registry, events) := by
  unfold Registry.load at loaded
  cases contents : t.readText here path with
  | error cause => simp [contents] at loaded
  | ok text =>
    rw [contents] at loaded
    refine ⟨text, rfl, ?_⟩
    cases parsed : Registry.parse text with
    | error e => simp [parsed, Except.mapError] at loaded
    | ok read => simpa [parsed, Except.mapError] using loaded

namespace Command

/-- What a run has found when it prints a matrix. -/
structure Prints (s : Surroundings) (asked : Option Path) (ref : Option String) (printed : String)
    (w : Workspace) (text : String) (registry : Registry) (changes : ChangeSet) : Prop where
  opened : (Workspace.openAt s asked (Path.ofPlace s.here)).result = .ok w
  contents : s.tree.readText s.here (w.root.join w.config.matrix.definitions) = .ok text
  parsed : ∃ skipped, Registry.parse text = .ok (registry, skipped)
  changed : (PullRequest.changedFiles s.tree s.repositories s.here w.root ref).1 = .ok changes
  output : printed =
    (TestMatrix.resolve registry ⟨w.config.matrix.ignore⟩ changes).workflowOutput ++ "\n"

/-- A run fails without a word or prints a matrix. -/
theorem generateMatrix_cases (s : Surroundings) (asked : Option Path) (ref : Option String) :
    (∃ e, (generateMatrix s asked ref).result = .error e ∧
        (generateMatrix s asked ref).printed = "") ∨
      (generateMatrix s asked ref).result = .ok .success ∧
        ∃ w text registry changes,
          Prints s asked ref (generateMatrix s asked ref).printed w text registry changes := by
  unfold generateMatrix
  cases opened : (Workspace.openAt s asked (Path.ofPlace s.here)).result with
  | error e => exact Or.inl ⟨e, by simp [opened, CommandRun.failure]⟩
  | ok w =>
    dsimp only
    rw [opened]
    dsimp only
    cases loaded : Registry.load s.tree s.here (w.root.join w.config.matrix.definitions) with
    | error e => exact Or.inl ⟨e, rfl, rfl⟩
    | ok read =>
      obtain ⟨registry, skipped⟩ := read
      obtain ⟨text, contents, parsed⟩ := Registry.parse_of_load loaded
      dsimp only
      cases changed : (PullRequest.changedFiles s.tree s.repositories s.here w.root ref).1 with
      | error e => exact Or.inl ⟨e, rfl, rfl⟩
      | ok changes =>
        exact Or.inr ⟨rfl, w, text, registry, changes,
          ⟨opened, contents, ⟨skipped, parsed⟩, changed, rfl⟩⟩

/-- A matrix on the standard output: one line with a list for each type. -/
structure PrintedMatrix (s : Surroundings) (asked : Option Path) (ref : Option String)
    (stdout : Bytes) (lists : FloatType → List String) : Prop where
  output : stdout = Utf8.encode (TestMatrix.line lists ++ "\n")
  oneLine : '\n' ∉ (TestMatrix.line lists).toList
  ascending : ∀ type, (lists type).Pairwise fun a b =>
    bytesLess (Utf8.encode a) (Utf8.encode b) = true
  /-- Without the ref of a pull request nothing is listed. -/
  quiet : (∀ name, ref = some name → ¬ "merge".toList <:+: name.toList) →
    ∀ type, lists type = []
  /-- With one, the lists have what the differing files ask for. -/
  listed : ∀ name, ref = some name → "merge".toList <:+: name.toList →
    ∃ w text old new, (Workspace.openAt s asked (Path.ofPlace s.here)).result = .ok w ∧
      s.tree.readText s.here (w.root.join w.config.matrix.definitions) = .ok text ∧
      PullRequest.Compares s.tree s.repositories s.here w.root name old new ∧
      ∀ routine type,
        routine ∈ lists type ↔ Tested text w.config.matrix.ignore old new routine type

/-- With a workspace, definitions and changes the run ends well. -/
theorem generateMatrix_succeeds {s : Surroundings} {asked : Option Path} {ref : Option String}
    {w : Workspace} {text : String} {read : Registry × List Event} {changes : ChangeSet}
    (opened : (Workspace.openAt s asked (Path.ofPlace s.here)).result = .ok w)
    (contents : s.tree.readText s.here (w.root.join w.config.matrix.definitions) = .ok text)
    (parsed : Registry.parse text = .ok read)
    (changed : (PullRequest.changedFiles s.tree s.repositories s.here w.root ref).1 =
      .ok changes) :
    (generateMatrix s asked ref).result = .ok .success := by
  have loaded : Registry.load s.tree s.here (w.root.join w.config.matrix.definitions) =
      .ok read := by
    rw [Registry.load, contents]
    dsimp only
    rw [parsed]
    rfl
  unfold generateMatrix
  dsimp only
  rw [opened]
  dsimp only
  rw [loaded]
  dsimp only
  rw [changed]

theorem Prints.printedMatrix {s : Surroundings} {asked : Option Path} {ref : Option String}
    {printed : String} {w : Workspace} {text : String} {registry : Registry} {changes : ChangeSet}
    (prints : Prints s asked ref printed w text registry changes) :
    PrintedMatrix s asked ref (Utf8.encode printed)
      (TestMatrix.resolve registry ⟨w.config.matrix.ignore⟩ changes).changed where
  output := by rw [prints.output, TestMatrix.workflowOutput_eq]
  oneLine := TestMatrix.newline_not_mem_line _
  ascending := fun type => (TestMatrix.changed_ascending type).imp Utf8.bytesLess_encode
  quiet := by
    intro other type
    have none : (PullRequest.changedFiles s.tree s.repositories s.here w.root ref).1 =
        .ok TextSet.empty := by
      apply PullRequest.changedFiles_of_no_merge
      intro name same
      have apart := other name same
      rwa [← PullRequest.isMergeRef_iff, Bool.not_eq_true] at apart
    have changes_empty := Except.ok.inj (prints.changed.symm.trans none)
    rw [changes_empty, TestMatrix.changed_empty]
  listed := by
    intro name same merge
    subst same
    obtain ⟨old, new, compares, differ⟩ :=
      PullRequest.compares_of_changedFiles (PullRequest.isMergeRef_iff.2 merge) prints.changed
    obtain ⟨skipped, parsed⟩ := prints.parsed
    exact ⟨w, text, old, new, prints.opened, prints.contents, compares,
      TestMatrix.mem_changed_iff_tested parsed differ w.config.matrix.ignore⟩

end Command

namespace Host

/-- A command line that asks for the matrix runs the command. -/
theorem run_eq_report {host : Host} {arguments : List String} {config : Option String}
    (asked : CommandLine.read (host.machine.value? Help.configVariable) arguments =
      .run ⟨config, .generateMatrix⟩) :
    host.run arguments = report host.machine
      (Command.generateMatrix ⟨host.machine.tree, host.repositories, host.machine.here⟩
        (config.map Path.ofString) (host.machine.value? refVariable)) := by
  rw [run, asked]
  rfl

/-- The whole program, asked for the matrix before anything is printed: it fails and prints
nothing, or it ends well and prints the one line. -/
theorem run_generateMatrix (host : Host) (fresh : host.machine.printed = [])
    (arguments : List String) (config : Option String)
    (asked : CommandLine.read (host.machine.value? Help.configVariable) arguments =
      .run ⟨config, .generateMatrix⟩) :
    (host.run arguments).exitCode.value ≠ 0 ∧ (host.run arguments).stdout = [] ∨
      (host.run arguments).exitCode.value = 0 ∧ ∃ lists,
        Command.PrintedMatrix ⟨host.machine.tree, host.repositories, host.machine.here⟩
          (config.map Path.ofString) (host.machine.value? refVariable)
          (host.run arguments).stdout lists := by
  have cases := Command.generateMatrix_cases
    ⟨host.machine.tree, host.repositories, host.machine.here⟩ (config.map Path.ofString)
    (host.machine.value? refVariable)
  rw [run_eq_report asked]
  rcases cases with ⟨e, failed, silent⟩ | ⟨ended, w, text, registry, changes, prints⟩
  · left
    simp only [Report.exitCode, report, failed, silent, fresh]
    exact ⟨e.exitCode_value_ne_zero, rfl⟩
  · right
    simp only [Report.exitCode, report, ended, fresh, List.nil_append]
    exact ⟨rfl, _, prints.printedMatrix⟩

/-- Definitions of one routine. -/
def sampleDefinitions : String :=
  "\x7b\"sin\": \x7b\"sources\": [\"a.rs\"], \"type\": \"f64\"\x7d\x7d"

/-- A workspace at the top of a repository, and a pull request that changes a file. -/
def sampleHost : Host :=
  let place (names : List String) : Place := names.map Utf8.encode
  let commit (id : String) (parents : List String) (contents : Bytes) : Commit :=
    ⟨id, parents, .leaf (Utf8.encode "a.rs") ⟨.regular, contents⟩ .empty, id, by cbv⟩
  let repository : Repository := ⟨place ["work", ".git"], false,
    [commit "base" [] [1], commit "incoming" ["base"] [2], commit "joined" ["base", "incoming"] [2]],
    [("refs/pull/1/merge", .commit "joined")]⟩
  let tree : FileTree := ⟨[(place ["work"], .directory), (place ["work", ".git"], .directory),
    (place ["work", "etc"], .directory),
    (place ["work", "etc", "function-definitions.json"],
      .file (Utf8.encode sampleDefinitions) false)]⟩
  let machine : Machine :=
    { tree, here := place ["work"], settings := [(refVariable, "refs/pull/1/merge")] }
  ⟨machine, [repository], false⟩

theorem sampleHost_run :
    (sampleHost.run ["generate-matrix"]).exitCode.value = 0 ∧ ∃ lists,
      Command.PrintedMatrix
        ⟨sampleHost.machine.tree, sampleHost.repositories, sampleHost.machine.here⟩ none
        (some "refs/pull/1/merge") (sampleHost.run ["generate-matrix"]).stdout lists := by
  have asked : CommandLine.read (sampleHost.machine.value? Help.configVariable)
      ["generate-matrix"] = .run ⟨none, .generateMatrix⟩ := by
    decide +kernel
  have opened : (Workspace.openAt
      ⟨sampleHost.machine.tree, sampleHost.repositories, sampleHost.machine.here⟩ none
      (Path.ofPlace sampleHost.machine.here)).result = .ok ⟨Path.ofString "/work", {}⟩ := by
    cbv
  have contents : sampleHost.machine.tree.readText sampleHost.machine.here
      ((Path.ofString "/work").join (Path.ofString "etc/function-definitions.json")) =
        .ok sampleDefinitions := by
    cbv
  have parsed : Registry.parse sampleDefinitions =
      .ok (TextMap.empty.insert "sin" ⟨TextSet.ofList ["a.rs"], .f64⟩, []) := by
    decide +kernel
  have changed : (PullRequest.changedFiles sampleHost.machine.tree sampleHost.repositories
      sampleHost.machine.here (Path.ofString "/work") (some "refs/pull/1/merge")).1 =
        .ok (TextSet.ofList ["a.rs"]) := by
    cbv
  have ended : (sampleHost.run ["generate-matrix"]).exitCode.value = 0 := by
    have succeeds : (Command.generateMatrix
        ⟨sampleHost.machine.tree, sampleHost.repositories, sampleHost.machine.here⟩ none
        (some "refs/pull/1/merge")).result = .ok .success :=
      Command.generateMatrix_succeeds opened contents parsed changed
    have ref : sampleHost.machine.value? refVariable = some "refs/pull/1/merge" := rfl
    rw [run_eq_report asked, ref, Option.map_none, Report.exitCode, report]
    simp only [succeeds]
    rfl
  rcases run_generateMatrix sampleHost rfl ["generate-matrix"] none asked with
    ⟨failed, _⟩ | printed
  · exact absurd ended failed
  · exact printed

end Host

end RoutineWatch
