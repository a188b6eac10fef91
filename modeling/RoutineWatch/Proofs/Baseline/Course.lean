import Mathlib
import RoutineWatch.Command.Baseline
import RoutineWatch.Proofs.Program.Ending
import RoutineWatch.Proofs.Tool.Recording

/-!
# How a lookup goes

List the runs, download the artifacts of the first one, unpack the newest archive. Each call
depends on the success of the one before it.

- `Baseline.Course`: the seven courses, each with its calls, its outcome and its state.
- `Baseline.takesCourse_locate`: whatever the tools do, a lookup takes one of them.
- `Baseline.locateBaseline_result`: no course makes the command fail.
-/
namespace RoutineWatch.Baseline
variable {σ : Type}

/-! Runs in a listing -/

/-- The first JSON value of a listing is an array of runs, and this is the first one. -/
def FirstRun (listing : String) (job : Job) : Prop :=
  ∃ items rest jobs, Json.readFirst listing.toList = (.array items true, rest) ∧
    List.Forall₂ (fun item run => Job.ofDocument item = .ok run) items (job :: jobs)

theorem readAll_eq_ok_iff {items : List Json.Document} {jobs : List Job} :
    Job.readAll items = .ok jobs ↔
      List.Forall₂ (fun item run => Job.ofDocument item = .ok run) items jobs := by
  induction items generalizing jobs with
  | nil => simp [Job.readAll, eq_comm]
  | cons item items ih =>
    unfold Job.readAll
    cases first : Job.ofDocument item with
    | error mismatch =>
      constructor
      · intro read
        cases read
      · rintro (_ | ⟨read, _⟩)
        rw [first] at read
        cases read
    | ok job =>
      dsimp only
      constructor
      · intro read
        cases others : Job.readAll items with
        | error mismatch => rw [others] at read; cases read
        | ok rest =>
          rw [others] at read
          cases read
          exact .cons first (ih.1 others)
      · rintro (_ | ⟨read, others⟩)
        rw [first] at read
        cases read
        rw [ih.2 others]
        rfl

theorem latest_eq_some_iff {listing : String} {job : Job} :
    (latest listing).1 = some job ↔ FirstRun listing job := by
  have read : (latest listing).1 = some job ↔ Job.latest? listing = .ok (some job) := by
    unfold latest
    cases Job.latest? listing <;> simp
  rw [read]
  unfold Job.latest? FirstRun
  by_cases blank : Json.skipBlanks listing.toList = []
  · simp [blank, Json.readFirst, Json.readValue, Json.readNumeral, Json.numberDocument]
  · rw [if_neg (by simpa using blank)]
    obtain ⟨document, rest⟩ := Json.readFirst listing.toList
    cases document with
    | array items closed =>
      cases jobs : Job.readAll items with
      | error mismatch =>
        simp [Job.listOfDocument, jobs, Except.map, ← readAll_eq_ok_iff]
      | ok runs => cases closed <;> cases runs <;>
          simp [Job.listOfDocument, jobs, Except.map, ← readAll_eq_ok_iff]
    | _ => simp [Job.listOfDocument, Except.map]

theorem firstRun_unique {listing : String} {job other : Job} (one : FirstRun listing job)
    (two : FirstRun listing other) : job = other :=
  Option.some.inj ((latest_eq_some_iff.2 one).symm.trans (latest_eq_some_iff.2 two))

/-! The calls -/

def listRequest (config : BaselineConfig) (cwd : Path) : ToolRequest :=
  ⟨true, hubProgram, listArguments config, cwd⟩

def downloadRequest (config : BaselineConfig) (cwd : Path) (id : UInt64) : ToolRequest :=
  ⟨false, hubProgram, downloadArguments config id, cwd⟩

def unpackRequest (cwd archive : Path) : ToolRequest :=
  ⟨false, archiver, extractArguments archive, cwd⟩

theorem downloadRequest_inj {config : BaselineConfig} {cwd : Path} {id other : UInt64} :
    downloadRequest config cwd id = downloadRequest config cwd other ↔ id = other := by
  constructor
  · intro same
    have written : id.toNat.repr = other.toNat.repr := by
      simpa [downloadRequest, downloadArguments] using same
    have digits : Nat.toDigits 10 id.toNat = Nat.toDigits 10 other.toNat := by
      rw [← Nat.toList_repr, ← Nat.toList_repr, written]
    have value := congrArg (Nat.ofDigitChars 10 · 0) digits
    simp only [Nat.ofDigitChars_ten_toDigits] at value
    exact UInt64.toNat_inj.1 value
  · rintro rfl
    rfl

section
variable (runner : ToolRunner σ) (config : BaselineConfig) (options : Options) (cwd : Path)
  (state : σ)

/-- Listing the runs. -/
abbrev listing : ToolRun σ String := runner.output hubProgram (listArguments config) cwd state

/-- Downloading the artifacts of a run, after listing. -/
abbrev download (id : UInt64) : ToolRun σ Unit :=
  runner.status hubProgram (downloadArguments config id) cwd (listing runner config cwd state).state

/-- Unpacking an archive, after the download. -/
abbrev unpacking (id : UInt64) (archive : Path) : ToolRun σ Unit :=
  runner.status archiver (extractArguments archive) cwd (download runner config cwd state id).state

/-- The runs can be listed, and this is the first one. -/
def Lists (job : Job) : Prop :=
  ∃ text, (listing runner config cwd state).result = .ok text ∧ FirstRun text job

/-- The artifacts of the first run are asked for, and it has this id. -/
def Asks (job : Job) (id : UInt64) : Prop :=
  options.download = true ∧ Lists runner config cwd state job ∧ job.databaseId = some id

/-- They were downloaded and are to be unpacked, and the tree that the download left has this
archive. -/
def Finds (job : Job) (id : UInt64) (archive : Path) : Prop :=
  Asks runner config options cwd state job id ∧ options.extract = true ∧
    (download runner config cwd state id).result = .ok () ∧
    ∃ g newest, Glob.parse config.artifactGlob = .ok g ∧
      Archive.newest? (runner.files (download runner config cwd state id).state) g cwd =
        some newest ∧
      newest.path = archive

/-- How a lookup goes: its outcome, the calls it makes, and the state it leaves. -/
inductive Course : Outcome → List (ToolCall σ) → σ → Prop where
  | unlisted (failed : (listing runner config cwd state).result.isOk = false) :
    Course .unavailable [⟨listRequest config cwd, state, false⟩]
      (listing runner config cwd state).state
  | noRun (listed : (listing runner config cwd state).result.isOk = true)
      (empty : ∀ job, ¬ Lists runner config cwd state job) :
    Course .unavailable [⟨listRequest config cwd, state, true⟩]
      (listing runner config cwd state).state
  | located {job : Job} (lists : Lists runner config cwd state job)
      (stays : ∀ id, ¬ Asks runner config options cwd state job id) :
    Course (.located job) [⟨listRequest config cwd, state, true⟩]
      (listing runner config cwd state).state
  | undownloaded {job : Job} {id : UInt64} (asks : Asks runner config options cwd state job id)
      (failed : (download runner config cwd state id).result.isOk = false) :
    Course (.located job)
      [⟨listRequest config cwd, state, true⟩,
        ⟨downloadRequest config cwd id, (listing runner config cwd state).state, false⟩]
      (download runner config cwd state id).state
  | downloaded {job : Job} {id : UInt64} (asks : Asks runner config options cwd state job id)
      (fetched : (download runner config cwd state id).result = .ok ())
      (stays : ∀ archive, ¬ Finds runner config options cwd state job id archive) :
    Course (.downloaded job)
      [⟨listRequest config cwd, state, true⟩,
        ⟨downloadRequest config cwd id, (listing runner config cwd state).state, true⟩]
      (download runner config cwd state id).state
  | unextracted {job : Job} {id : UInt64} {archive : Path}
      (finds : Finds runner config options cwd state job id archive)
      (failed : (unpacking runner config cwd state id archive).result.isOk = false) :
    Course (.downloaded job)
      [⟨listRequest config cwd, state, true⟩,
        ⟨downloadRequest config cwd id, (listing runner config cwd state).state, true⟩,
        ⟨unpackRequest cwd archive, (download runner config cwd state id).state, false⟩]
      (unpacking runner config cwd state id archive).state
  | extracted {job : Job} {id : UInt64} {archive : Path}
      (finds : Finds runner config options cwd state job id archive)
      (unpacked : (unpacking runner config cwd state id archive).result = .ok ()) :
    Course (.extracted job archive)
      [⟨listRequest config cwd, state, true⟩,
        ⟨downloadRequest config cwd id, (listing runner config cwd state).state, true⟩,
        ⟨unpackRequest cwd archive, (download runner config cwd state id).state, true⟩]
      (unpacking runner config cwd state id archive).state

/-- A lookup takes a course, and with a record kept it is the same and the calls of the course
are on record. -/
def TakesCourse (l : Lookup σ) (kept : Lookup (σ × List (ToolCall σ))) : Prop :=
  ∃ calls, Course runner config options cwd state l.outcome calls l.state ∧
    kept = ⟨l.outcome, l.notices, (l.state, calls)⟩

end

section
variable {runner : ToolRunner σ} {config : BaselineConfig} {options : Options} {cwd : Path}
  {state : σ}

theorem TakesCourse.after {l : Lookup σ} {kept : Lookup (σ × List (ToolCall σ))}
    (course : TakesCourse runner config options cwd state l kept) (notices : List Notice) :
    TakesCourse runner config options cwd state (l.after notices) (kept.after notices) := by
  obtain ⟨calls, goes, rfl⟩ := course
  exact ⟨calls, goes, rfl⟩

theorem newestArchive_eq_some_iff {t : FileTree} {pattern : String} {archive : Path} :
    (newestArchive t cwd pattern).1 = some archive ↔
      ∃ g newest, Glob.parse pattern = .ok g ∧ Archive.newest? t g cwd = some newest ∧
        newest.path = archive := by
  unfold newestArchive newestArchiveListed
  cases Glob.parse pattern with
  | error fault => simp
  | ok g => simp [Archive.newest?, Option.map_eq_some_iff]

theorem takesCourse_unpack {job : Job} {id : UInt64}
    (asks : Asks runner config options cwd state job id) (extract : options.extract = true)
    (fetched : (download runner config cwd state id).result = .ok ()) :
    TakesCourse runner config options cwd state
      (unpack runner config cwd job (download runner config cwd state id).state)
      (unpack runner.recorded config cwd job ((download runner config cwd state id).state,
        [⟨listRequest config cwd, state, true⟩,
          ⟨downloadRequest config cwd id, (listing runner config cwd state).state, true⟩])) := by
  unfold unpack TakesCourse
  simp only [ToolRunner.recorded]
  cases found : (newestArchive (runner.files (download runner config cwd state id).state) cwd
      config.artifactGlob).1 with
  | none =>
    refine ⟨_, .downloaded asks fetched fun archive finds => ?_, rfl⟩
    rw [newestArchive_eq_some_iff.2 finds.2.2.2] at found
    cases found
  | some archive =>
    have finds : Finds runner config options cwd state job id archive :=
      ⟨asks, extract, fetched, newestArchive_eq_some_iff.1 found⟩
    dsimp only
    cases unpacked : (unpacking runner config cwd state id archive).result with
    | error e => exact ⟨_, .unextracted finds (by rw [unpacked]; rfl), rfl⟩
    | ok _ => exact ⟨_, .extracted finds unpacked, rfl⟩

theorem takesCourse_fetch {job : Job} (lists : Lists runner config cwd state job)
    (asked : options.download = true) :
    TakesCourse runner config options cwd state
      (fetch runner config options cwd job (listing runner config cwd state).state)
      (fetch runner.recorded config options cwd job ((listing runner config cwd state).state,
        [⟨listRequest config cwd, state, true⟩])) := by
  unfold fetch
  cases numbered : job.databaseId with
  | none =>
    refine ⟨_, .located lists fun id asks => ?_, rfl⟩
    rw [asks.2.2] at numbered
    cases numbered
  | some id =>
    have asks : Asks runner config options cwd state job id := ⟨asked, lists, numbered⟩
    simp only [ToolRunner.recorded]
    cases fetched : (download runner config cwd state id).result with
    | error e => exact ⟨_, .undownloaded asks (by rw [fetched]; rfl), rfl⟩
    | ok _ =>
      dsimp only
      cases extract : options.extract with
      | false =>
        refine ⟨_, .downloaded asks fetched fun archive finds => ?_, rfl⟩
        rw [finds.2.1] at extract
        cases extract
      | true => exact (takesCourse_unpack asks extract fetched).after _

theorem takesCourse_locate (runner : ToolRunner σ) (config : BaselineConfig) (options : Options)
    (cwd : Path) (state : σ) :
    TakesCourse runner config options cwd state (locate runner config options cwd state)
      (locate runner.recorded config options cwd (state, [])) := by
  -- Both lookups get the same answers, so a case split takes them down the same branch.
  unfold locate
  simp only [ToolRunner.recorded]
  cases listed : (listing runner config cwd state).result with
  | error e => exact ⟨_, .unlisted (by rw [listed]; rfl), rfl⟩
  | ok text =>
    dsimp only
    cases first : (latest text).1 with
    | none =>
      refine ⟨_, .noRun (by rw [listed]; rfl) ?_, rfl⟩
      rintro job ⟨other, again, run⟩
      cases listed.symm.trans again
      rw [latest_eq_some_iff.2 run] at first
      cases first
    | some job =>
      have lists : Lists runner config cwd state job := ⟨text, listed, latest_eq_some_iff.1 first⟩
      dsimp only
      cases asked : options.download with
      | false =>
        refine ⟨_, .located lists fun id asks => ?_, rfl⟩
        rw [asks.1] at asked
        cases asked
      | true => exact (takesCourse_fetch lists asked).after _

/-- The command ends well once it has its workspace. -/
theorem locateBaseline_result {repositories : List Repository} {here : Place} {asked : Option Path}
    {w : Workspace} (opened : (Workspace.openAt ⟨runner.files state, repositories, here⟩ asked
      (Path.ofPlace here)).result = .ok w) :
    (Command.locateBaseline runner repositories here asked options state).1.result = .ok .success := by
  unfold Command.locateBaseline
  dsimp only
  rw [opened]

end

end RoutineWatch.Baseline
