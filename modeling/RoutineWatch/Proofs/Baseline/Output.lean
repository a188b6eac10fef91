import RoutineWatch.Proofs.Baseline.Course
import RoutineWatch.Proofs.Json.OneLine
import RoutineWatch.Proofs.Text.RoundTrip

/-!
# What a lookup leaves on the standard output

The answer is one line, which decodes as the record of the run that was found. But the tools
that download and unpack print to the same place, so what they print stands before it.

- `Command.Answers`: the answer.
- `Host.run_locateBaseline`: what the whole program prints.
- `Host.chattyHost_disturbed`: a download that prints, after which the output is not the answer
  alone.
-/
namespace RoutineWatch

namespace Machine

/-- What a request puts on the standard output of the program: all that the tool prints, if it
can be started and is not captured. -/
def shown (m : Machine) (request : ToolRequest) : Bytes :=
  if request.captured then []
  else
    match (m.launch request.program request.arguments request.directory).2 with
    | .error _ => []
    | .ok ran => ran.output

theorem launch_printed (m : Machine) (program : String) (arguments : List String)
    (directory : Path) : (m.launch program arguments directory).1.printed = m.printed := by
  unfold launch
  dsimp only
  repeat' split
  all_goals rfl

theorem output_printed (program : String) (arguments : List String) (directory : Path)
    (m : Machine) :
    (runner.output program arguments directory m).state.printed = m.printed :=
  m.launch_printed program arguments directory

theorem status_printed (program : String) (arguments : List String) (directory : Path)
    (m : Machine) :
    (runner.status program arguments directory m).state.printed =
      m.printed ++ m.shown ⟨false, program, arguments, directory⟩ := by
  have kept := m.launch_printed program arguments directory
  simp only [runner, status, shown, Bool.false_eq_true, if_false]
  cases launched : m.launch program arguments directory with
  | mk after result =>
    rw [launched] at kept
    cases result with
    | error fault => simpa using kept
    | ok ran => simp only [← kept]

end Machine

namespace Baseline

/-- What the calls of a lookup put on the standard output. -/
def shownBy (calls : List (ToolCall Machine)) : Bytes :=
  calls.flatMap fun call => call.before.shown call.request

section
variable {config : BaselineConfig} {options : Options} {cwd : Path} {m after : Machine}
  {outcome : Outcome} {calls : List (ToolCall Machine)}

/-- A lookup adds to the standard output what its calls show. -/
theorem Course.printed
    (course : Course Machine.runner config options cwd m outcome calls after) :
    after.printed = m.printed ++ shownBy calls := by
  have captured : m.shown (listRequest config cwd) = [] := rfl
  cases course <;>
    simp [shownBy, captured, listing, download, unpacking, downloadRequest, unpackRequest,
      Machine.output_printed, Machine.status_printed]

/-- Without a download nothing is shown. -/
theorem Course.shownBy_eq_nil
    (course : Course Machine.runner config options cwd m outcome calls after)
    (stays : options.download = false) : shownBy calls = [] := by
  have captured : m.shown (listRequest config cwd) = [] := rfl
  have unasked {job : Job} {id : UInt64} :
      ¬ Asks Machine.runner config options cwd m job id := by
    rintro ⟨asked, _⟩
    rw [asked] at stays
    cases stays
  cases course with
  | unlisted _ | noRun _ _ | located _ _ => simp [shownBy, captured]
  | undownloaded asks _ | downloaded asks _ _ => exact absurd asks unasked
  | unextracted finds _ | extracted finds _ => exact absurd finds.1 unasked

end

end Baseline

/-! The answer -/

namespace Job

theorem hasNaturals_writeNumber (value : Option UInt64) : (writeNumber value).HasNaturals := by
  cases value with
  | none => trivial
  | some n =>
    have small := n.toNat_lt
    have most : Json.maxSignificand = 2 ^ 64 - 1 := rfl
    simp only [writeNumber, Json.nat, Json.HasNaturals, most]
    omega

theorem hasNaturals_writeText (value : Option String) : (writeText value).HasNaturals := by
  cases value <;> trivial

theorem hasNaturals_toJson (job : Job) : job.toJson.HasNaturals := by
  simp [toJson, fields, numberField, textField, Json.HasNaturals, Json.MembersHaveNaturals,
    hasNaturals_writeNumber, hasNaturals_writeText]

theorem height_writeNumber (value : Option UInt64) : (writeNumber value).height = 0 := by
  cases value <;> rfl

theorem height_writeText (value : Option String) : (writeText value).height = 0 := by
  cases value <;> rfl

theorem height_toJson (job : Job) : job.toJson.height = 1 := by
  simp [toJson, fields, numberField, textField, Json.height, Json.membersHeight,
    height_writeNumber, height_writeText]

theorem newline_not_mem_compact (job : Job) : '\n' ∉ job.toJson.compact.toList := by
  rw [Json.compact, String.toList_ofList]
  intro member
  have control := Json.isPlain_compactChars _ job.hasNaturals_toJson '\n' member
  exact absurd control (by decide)

/-- The record's line is decoded as the record. -/
theorem parse_line (job : Job) : Json.parse (job.toJson.compact ++ "\n") = .ok job.toJson.sorted := by
  have low : job.toJson.height < Json.depthLimit := by
    rw [height_toJson]
    decide
  have read := Json.parse_spelled (Json.spells_compactChars _ job.hasNaturals_toJson)
    (Json.allBlank_newline 0) low
  rw [String.ofList_append] at read
  exact read

end Job

namespace Command

/-- The answer of a lookup: nothing, or one line that decodes as the record of the run. -/
structure Answers (outcome : Baseline.Outcome) (text : String) : Prop where
  silent : outcome = .unavailable → text = ""
  line : ∀ job, outcome.job? = some job → text = job.toJson.compact ++ "\n" ∧
    '\n' ∉ job.toJson.compact.toList ∧ Json.parse text = .ok job.toJson.sorted

theorem answers_outcomeText (outcome : Baseline.Outcome) : Answers outcome (outcomeText outcome) where
  silent := by
    rintro rfl
    rfl
  line := by
    intro job found
    rw [outcomeText, found]
    exact ⟨rfl, job.newline_not_mem_compact, job.parse_line⟩

/-- A lookup on the standard output: first what its calls show, then the answer. -/
structure PrintedBaseline (m : Machine) (repositories : List Repository) (asked : Option Path)
    (options : Baseline.Options) (stdout : Bytes) (w : Workspace)
    (calls : List (ToolCall Machine)) (answer : String) : Prop where
  opened : (Workspace.openAt ⟨m.tree, repositories, m.here⟩ asked (Path.ofPlace m.here)).result =
    .ok w
  called : (Baseline.locate Machine.runner.recorded w.config.baseline options
    (Path.ofPlace m.here) (m, [])).state.2 = calls
  answers : Answers (Baseline.locate Machine.runner w.config.baseline options
    (Path.ofPlace m.here) m).outcome answer
  output : stdout = Baseline.shownBy calls ++ Utf8.encode answer
  /-- The answer stands alone exactly if no call shows anything. -/
  alone : stdout = Utf8.encode answer ↔ ∀ call ∈ calls, call.before.shown call.request = []
  /-- As it does without a download. -/
  undisturbed : options.download = false → stdout = Utf8.encode answer

/-- A run that ends well prints what its calls show, and the answer. -/
theorem locateBaseline_printed {m : Machine} {repositories : List Repository} {asked : Option Path}
    {options : Baseline.Options} (fresh : m.printed = [])
    (ended : (locateBaseline Machine.runner repositories m.here asked options m).1.exitStatus = 0) :
    ∃ w calls answer, PrintedBaseline m repositories asked options
      ((locateBaseline Machine.runner repositories m.here asked options m).2.printed ++
        Utf8.encode (locateBaseline Machine.runner repositories m.here asked options m).1.printed)
      w calls answer := by
  unfold locateBaseline at ended ⊢
  cases opened : (Workspace.openAt ⟨m.tree, repositories, m.here⟩ asked
      (Path.ofPlace m.here)).result with
  | error e =>
    simp only [Machine.runner, opened, CommandRun.failure] at ended
    exact absurd ended e.exitCode_value_ne_zero
  | ok w =>
    obtain ⟨calls, course, recorded⟩ := Baseline.takesCourse_locate Machine.runner
      w.config.baseline options (Path.ofPlace m.here) m
    have output := course.printed
    rw [fresh, List.nil_append] at output
    have tree : Machine.runner.files m = m.tree := rfl
    refine ⟨w, calls, _, opened, by rw [recorded], answers_outcomeText _, ?_, ?_, ?_⟩
    all_goals simp only [tree, opened, output]
    · rw [List.append_left_eq_self, Baseline.shownBy, List.flatMap_eq_nil_iff]
    · intro stays
      rw [course.shownBy_eq_nil stays, List.nil_append]

end Command

namespace Host

/-- The program, asked for a baseline before anything is printed. If it ends well, its standard
output is what the tools print for the download and the unpacking, and then the answer. -/
theorem run_locateBaseline (host : Host) (fresh : host.machine.printed = [])
    (arguments : List String) (config : Option String) (options : Baseline.Options)
    (asked : CommandLine.read (host.machine.value? Help.configVariable) arguments =
      .run ⟨config, .locateBaseline options⟩)
    (ended : (host.run arguments).exitCode.value = 0) :
    ∃ w calls answer, Command.PrintedBaseline host.machine host.repositories
      (config.map Path.ofString) options (host.run arguments).stdout w calls answer := by
  rw [run_eq_runCommand asked, runCommand] at ended ⊢
  dsimp only at ended ⊢
  rw [exitCode_report] at ended
  exact Command.locateBaseline_printed fresh ended

/-! A download that prints -/

/-- A listing of one run. -/
def hubListing : String := "[\x7b\"databaseId\": 7\x7d]\n"

/-- A script that prints the listing, whatever it is asked. -/
def chattyHub : String := "#!/bin/sh\necho '[\x7b\"databaseId\": 7\x7d]'\n"

def chattyTree : FileTree := ⟨[
  ([Utf8.encode "tools"], .directory),
  (["tools", "gh"].map Utf8.encode, .file (Utf8.encode chattyHub) true)]⟩

def chattyMachine : Machine := { tree := chattyTree, here := [], settings := [("PATH", "/tools")] }

def chattyHost : Host := ⟨chattyMachine, [], false⟩

/-- The script does not look at its arguments. -/
theorem chattyHub_start (n : Nat) (arguments : List Script.Text) :
    ((Script.start (n + 20) (Script.ofString "/tools/gh") (.script (Utf8.encode chattyHub)) arguments
        (chattyMachine.session [])).map (fun s => (s.tree, s.written 0, s.written 1)) id) =
      ((chattyTree, Utf8.encode hubListing, []), .ok (.exited 0)) := by
  cbv

theorem chattyMachine_launch (arguments : List String)
    (plain : (arguments.any fun text => text.toList.contains '\x00') = false) :
    chattyMachine.launch "gh" arguments (Path.ofPlace []) =
      (chattyMachine, .ok ⟨.exited 0, Utf8.encode hubListing, []⟩) := by
  have located : chattyMachine.tree.locate? chattyMachine.here (Path.ofPlace []) = .ok [] := by cbv
  have found : Script.Program.find chattyMachine.tree [] (Script.ofString "/tools")
      (Script.ofString "gh") =
        .ok (Script.ofString "/tools/gh", .script (Utf8.encode chattyHub)) := by
    cbv
  have path : (chattyMachine.value? "PATH").getD Machine.defaultSearchPath = "/tools" := by
    decide +kernel
  -- The script takes fewer than twenty steps, so the rest of the limit need not be looked at.
  have limit : Machine.stepLimit = 9999980 + 20 := rfl
  have started : ("gh".toList.contains '\x00' || false ||
      (Path.ofPlace []).bytes.contains 0) = false := by
    decide +kernel
  have ran := chattyHub_start 9999980 (arguments.map Script.ofString)
  unfold Machine.launch
  rw [limit, path]
  simp only [plain, located, found, started]
  generalize Script.start (9999980 + 20) _ _ _ _ = run at ran ⊢
  obtain ⟨s, ending⟩ := run
  obtain ⟨kept, rfl⟩ := Prod.mk.inj ran
  obtain ⟨tree, written⟩ := Prod.mk.inj kept
  obtain ⟨output, errors⟩ := Prod.mk.inj written
  simp only [tree, output, errors]
  rfl

theorem chattyHost_asked : CommandLine.read (chattyHost.machine.value? Help.configVariable)
    ["locate-baseline", "--download"] = .run ⟨none, .locateBaseline ⟨true, false⟩⟩ := by
  decide +kernel

theorem chattyHost_opened :
    (Workspace.openAt ⟨chattyTree, [], []⟩ none (Path.ofPlace [])).result =
      .ok ⟨Path.ofString "/", {}⟩ := by
  cbv

/-- There the run is listed and downloaded, and the download prints the listing once more. -/
theorem chattyMachine_locate :
    (Baseline.locate Machine.runner {} ⟨true, false⟩ (Path.ofPlace []) chattyMachine).outcome =
        .downloaded { databaseId := some 7 } ∧
      (Baseline.locate Machine.runner {} ⟨true, false⟩ (Path.ofPlace []) chattyMachine).state =
        { chattyMachine with printed := Utf8.encode hubListing } := by
  have first : (Baseline.latest hubListing).1 = some { databaseId := some 7 } := by
    decide +kernel
  have listed := chattyMachine_launch (Baseline.listArguments {}) (by decide +kernel)
  have fetched := chattyMachine_launch (Baseline.downloadArguments {} 7) (by decide +kernel)
  have text : Utf8.decode? (Utf8.encode hubListing) = .ok hubListing := Utf8.decode?_encode _
  have silent : chattyMachine.printed = [] := rfl
  constructor <;>
    simp [Baseline.locate, Baseline.fetch, Baseline.Lookup.after, Machine.runner, Machine.output,
      Machine.status, Baseline.hubProgram, listed, fetched, text, first, Except.mapError, silent]

theorem chattyHost_run_eq :
    chattyHost.run ["locate-baseline", "--download"] =
      report (Command.locateBaseline Machine.runner [] [] none ⟨true, false⟩ chattyMachine).2
        (Command.locateBaseline Machine.runner [] [] none ⟨true, false⟩ chattyMachine).1 := by
  rw [run_eq_runCommand chattyHost_asked]
  rfl

theorem chattyHost_ended :
    (chattyHost.run ["locate-baseline", "--download"]).exitCode.value = 0 := by
  rw [chattyHost_run_eq, exitCode_report, CommandRun.exitStatus,
    Baseline.locateBaseline_result chattyHost_opened]
  rfl

theorem chattyHost_stdout :
    (chattyHost.run ["locate-baseline", "--download"]).stdout = Utf8.encode hubListing ++
      Utf8.encode ((Job.toJson { databaseId := some 7 }).compact ++ "\n") := by
  obtain ⟨outcome, state⟩ := chattyMachine_locate
  have opened : (Workspace.openAt ⟨Machine.runner.files chattyMachine, [], []⟩ none
      (Path.ofPlace [])).result = .ok ⟨Path.ofString "/", {}⟩ := chattyHost_opened
  rw [chattyHost_run_eq, report, Command.locateBaseline]
  dsimp only
  rw [opened]
  simp only [outcome, state, Command.outcomeText, Baseline.Outcome.job?]

/-- The run ends well. But what it prints is neither empty nor the line of any record. -/
theorem chattyHost_disturbed :
    (chattyHost.run ["locate-baseline", "--download"]).exitCode.value = 0 ∧
      (chattyHost.run ["locate-baseline", "--download"]).stdout ≠ [] ∧
      ∀ job : Job, (chattyHost.run ["locate-baseline", "--download"]).stdout ≠
        Utf8.encode (job.toJson.compact ++ "\n") := by
  have bracket : (chattyHost.run ["locate-baseline", "--download"]).stdout.head? = some 91 := by
    rw [chattyHost_stdout]
    rfl
  refine ⟨chattyHost_ended, fun empty => ?_, fun job same => ?_⟩
  · rw [empty] at bracket
    cases bracket
  · have brace : (Utf8.encode (job.toJson.compact ++ "\n")).head? = some 123 := by
      simp [Utf8.encode_eq, Json.compact, Job.toJson, Json.compactChars, String.utf8EncodeChar]
    rw [same, brace] at bracket
    cases bracket

/-- There a run prints what the download shows, and then the answer. -/
theorem chattyHost_printed :
    (chattyHost.run ["locate-baseline", "--download"]).exitCode.value = 0 ∧
      ∃ w calls answer, Command.PrintedBaseline chattyMachine [] none ⟨true, false⟩
        (chattyHost.run ["locate-baseline", "--download"]).stdout w calls answer :=
  ⟨chattyHost_ended, run_locateBaseline chattyHost rfl _ none ⟨true, false⟩ chattyHost_asked
    chattyHost_ended⟩

end Host

end RoutineWatch
