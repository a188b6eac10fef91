import RoutineWatch.Baseline.Archive
import RoutineWatch.Baseline.Job
import RoutineWatch.Config
import RoutineWatch.Run

/-!
# Looking up the latest baseline

Looking up the latest baseline: list the runs, download the artifacts of the latest one,
unpack the newest archive. Nothing here fails. What goes wrong is logged, and the
outcome tells how far the lookup came.

- `Baseline.locate`: the lookup.

Specification, §§ 7 and 10.8. The tools are a parameter (`ToolRunner`).
-/
namespace RoutineWatch.Baseline

/-- What is asked for besides the latest run. -/
structure Options where
  download : Bool := false
  extract : Bool := false
deriving DecidableEq, Repr

/-- How far a lookup came. -/
inductive Outcome where
  /-- There is no usable run. -/
  | unavailable
  /-- The latest run is known, and nothing was downloaded. -/
  | located (job : Job)
  /-- Its artifacts were downloaded. -/
  | downloaded (job : Job)
  /-- The newest archive was unpacked. -/
  | extracted (job : Job) (archive : Path)
deriving DecidableEq, Repr

def Outcome.job? : Outcome → Option Job
  | .unavailable => none
  | .located job => some job
  | .downloaded job => some job
  | .extracted job _ => some job

/-- What a lookup yields. -/
structure Lookup (σ : Type) where
  outcome : Outcome
  notices : List Notice
  state : σ

/-- A lookup that came after other things were noticed. -/
def Lookup.after {σ : Type} (notices : List Notice) (l : Lookup σ) : Lookup σ :=
  { l with notices := notices ++ l.notices }

def hubProgram : String := "gh"

def archiver : String := "tar"

def listArguments (config : BaselineConfig) : List String := [
  "run",
  "list",
  "--branch=" ++ config.branch,
  "--limit=1",
  "--json=" ++ String.intercalate "," (Job.fields.map (·.name)),
  "--jq=select(.[].workflowName == \"" ++ config.workflow ++ "\")"]

def downloadArguments (config : BaselineConfig) (id : UInt64) : List String :=
  ["run", "download", toString id.toNat, "--pattern=" ++ config.artifactGlob]

def extractArguments (archive : Path) : List String := ["xvf", archive.display]

/-- The first run of a listing, with what is noticed while it is read. -/
def latest (listing : String) : Option Job × List Notice :=
  match Job.latest? listing with
  | .ok job => (job, [])
  | .error mismatch =>
    (none, [.warn ("unexpected `gh run list` output: " ++ mismatch.message)])

/-- The newest archive that a listing shows. -/
def newestArchiveListed (list : Listing) (t : FileTree) (cwd : Path) (pattern : String) :
    Option Path × List Notice :=
  match Glob.parse pattern with
  | .error fault =>
    (none, [.warn ("invalid artifact glob `" ++ pattern ++ "`: " ++ fault.message pattern)])
  | .ok g => ((Archive.newestListed? list t g cwd).map Archive.path, [])

/-- The newest archive that was downloaded. -/
def newestArchive (t : FileTree) (cwd : Path) (pattern : String) : Option Path × List Notice :=
  newestArchiveListed t.names t cwd pattern

variable {σ : Type}

/-- Unpacks the newest archive. -/
def unpack (runner : ToolRunner σ) (config : BaselineConfig) (cwd : Path) (job : Job)
    (state : σ) : Lookup σ :=
  let found := newestArchive (runner.files state) cwd config.artifactGlob
  match found.1 with
  | none =>
    ⟨.downloaded job,
      found.2 ++ [.warn ("no archive matching `" ++ config.artifactGlob ++ "` was downloaded")],
      state⟩
  | some archive =>
    let run := runner.status archiver (extractArguments archive) cwd state
    let notices := .info ("extracting " ++ archive.display) :: run.notices
    match run.result with
    | .ok () => ⟨.extracted job archive, notices, run.state⟩
    | .error e =>
      ⟨.downloaded job,
        notices ++ [.warn ("failed to extract " ++ archive.display ++ ": " ++ e.message)],
        run.state⟩

def fetch (runner : ToolRunner σ) (config : BaselineConfig) (options : Options) (cwd : Path)
    (job : Job) (state : σ) : Lookup σ :=
  match job.databaseId with
  | none => ⟨.located job, [.warn "unable to find job ID"], state⟩
  | some id =>
    let run := runner.status hubProgram (downloadArguments config id) cwd state
    match run.result with
    | .error e =>
      ⟨.located job, run.notices ++ [.warn ("failed to download artifacts: " ++ e.message)],
        run.state⟩
    | .ok () =>
      if options.extract then (unpack runner config cwd job run.state).after run.notices
      else ⟨.downloaded job, run.notices, run.state⟩

/-- Looks up the latest run and fetches what is asked for. -/
def locate (runner : ToolRunner σ) (config : BaselineConfig) (options : Options) (cwd : Path)
    (state : σ) : Lookup σ :=
  let run := runner.output hubProgram (listArguments config) cwd state
  match run.result with
  | .error e =>
    ⟨.unavailable, run.notices ++ [.warn ("failed to run github command: " ++ e.message)],
      run.state⟩
  | .ok listing =>
    let read := latest listing
    let notices := run.notices ++ read.2
    match read.1 with
    | none =>
      ⟨.unavailable,
        notices ++ [.warn ("no `" ++ config.workflow ++ "` run found on `" ++ config.branch ++ "`")],
        run.state⟩
    | some job =>
      let notices := notices ++ [.info ("latest job: " ++ Json.pretty 2 job.toJson)]
      if options.download then (fetch runner config options cwd job run.state).after notices
      else ⟨.located job, notices, run.state⟩

end RoutineWatch.Baseline
