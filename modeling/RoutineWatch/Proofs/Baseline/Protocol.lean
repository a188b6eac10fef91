import RoutineWatch.Proofs.Baseline.Course

/-!
# The protocol of a lookup

The calls are always made in one order, each one exactly if the ones before it gave what it
needs, and the outcome is told by how many calls were made and which of them succeeded.

- `Baseline.FollowsProtocol`: the protocol.
- `Baseline.Course.followsProtocol`: every course follows it.
- `Baseline.lookup_protocol`: every lookup does.
-/
namespace RoutineWatch.Baseline
variable {σ : Type}

section
variable {runner : ToolRunner σ} {config : BaselineConfig} {options : Options} {cwd : Path}
  {state : σ}

theorem lists_unique {job other : Job} (one : Lists runner config cwd state job)
    (two : Lists runner config cwd state other) : job = other := by
  obtain ⟨text, listed, first⟩ := one
  obtain ⟨again, relisted, second⟩ := two
  cases listed.symm.trans relisted
  exact firstRun_unique first second

theorem asks_unique {job other : Job} {id id' : UInt64}
    (one : Asks runner config options cwd state job id)
    (two : Asks runner config options cwd state other id') : job = other ∧ id = id' := by
  cases lists_unique one.2.1 two.2.1
  exact ⟨rfl, Option.some.inj (one.2.2.symm.trans two.2.2)⟩

theorem finds_unique {job other : Job} {id id' : UInt64} {archive archive' : Path}
    (one : Finds runner config options cwd state job id archive)
    (two : Finds runner config options cwd state other id' archive') : archive = archive' := by
  obtain ⟨rfl, rfl⟩ := asks_unique one.1 two.1
  have first := newestArchive_eq_some_iff.2 one.2.2.2
  exact Option.some.inj (first.symm.trans (newestArchive_eq_some_iff.2 two.2.2.2))

end

section
variable (runner : ToolRunner σ) (config : BaselineConfig) (options : Options) (cwd : Path)
  (state : σ)

/-- The download was called and succeeded. -/
def Downloads (calls : List (ToolCall σ)) : Prop :=
  ∃ call ∈ calls, ∃ id, call.request = downloadRequest config cwd id ∧ call.succeeded = true

/-- The link between the calls of a lookup and its outcome. -/
structure FollowsProtocol (outcome : Outcome) (calls : List (ToolCall σ)) : Prop where
  order : ∃ id archive, calls.map (·.request) <+:
    [listRequest config cwd, downloadRequest config cwd id, unpackRequest cwd archive]
  lists : listRequest config cwd ∈ calls.map (·.request)
  /-- The download is called for the id of the first run, if that is asked for and known. -/
  downloads : ∀ id, downloadRequest config cwd id ∈ calls.map (·.request) ↔
    ∃ job, Asks runner config options cwd state job id
  /-- The archiver is called for the newest archive that the download left. -/
  unpacks : ∀ request : ToolRequest, request.program = archiver →
    (request ∈ calls.map (·.request) ↔ ∃ job id archive,
      Finds runner config options cwd state job id archive ∧ request = unpackRequest cwd archive)
  unavailable : outcome = .unavailable ↔ ∀ job, ¬ Lists runner config cwd state job
  located : (∃ job, outcome = .located job) ↔
    (∃ job, Lists runner config cwd state job) ∧ ¬ Downloads config cwd calls
  downloaded : (∃ job, outcome = .downloaded job) ↔
    Downloads config cwd calls ∧ ¬ ∃ job archive, outcome = .extracted job archive
  extracted : (∃ job archive, outcome = .extracted job archive) ↔
    calls.length = 3 ∧ ∀ call ∈ calls, call.succeeded = true
  archive : ∀ job archive, outcome = .extracted job archive →
    ∃ id, Finds runner config options cwd state job id archive
  /-- Whatever came after, the outcome carries the first run. -/
  job : ∀ job, outcome.job? = some job ↔ Lists runner config cwd state job

end

section
variable {runner : ToolRunner σ} {config : BaselineConfig} {options : Options} {cwd : Path}
  {state : σ}

variable {outcome : Outcome} {calls : List (ToolCall σ)} {after : σ}

theorem not_lists_of_failed (failed : (listing runner config cwd state).result.isOk = false)
    (job : Job) : ¬ Lists runner config cwd state job := by
  rintro ⟨text, listed, _⟩
  rw [listed] at failed
  cases failed

theorem Course.job_iff (course : Course runner config options cwd state outcome calls after)
    (job : Job) : outcome.job? = some job ↔ Lists runner config cwd state job := by
  have one {first : Job} (lists : Lists runner config cwd state first) :
      some first = some job ↔ Lists runner config cwd state job :=
    ⟨fun same => Option.some.inj same ▸ lists, fun other => by rw [lists_unique lists other]⟩
  cases course with
  | unlisted failed => simp [Outcome.job?, not_lists_of_failed failed job]
  | noRun listed empty => simp [Outcome.job?, empty job]
  | located lists stays => exact one lists
  | undownloaded asks failed => exact one asks.2.1
  | downloaded asks fetched stays => exact one asks.2.1
  | unextracted finds failed => exact one finds.1.2.1
  | extracted finds unpacked => exact one finds.1.2.1

theorem downloadRequest_ne_listRequest (config : BaselineConfig) (cwd : Path) (id : UInt64) :
    downloadRequest config cwd id ≠ listRequest config cwd := by
  simp [listRequest, downloadRequest]

theorem downloadRequest_ne_unpackRequest (config : BaselineConfig) (cwd : Path) (id : UInt64)
    (archive : Path) :
    downloadRequest config cwd id ≠ unpackRequest cwd archive := by
  simp [unpackRequest, downloadRequest, hubProgram, archiver]

/-- If only the listing is called, nothing is asked for. -/
theorem Course.not_asks (course : Course runner config options cwd state outcome calls after)
    (one : calls.length = 1) (job : Job) (id : UInt64) :
    ¬ Asks runner config options cwd state job id := by
  intro asks
  cases course with
  | unlisted failed => exact not_lists_of_failed failed job asks.2.1
  | noRun listed empty => exact empty job asks.2.1
  | located lists stays =>
    cases lists_unique lists asks.2.1
    exact stays id asks
  | _ => simp at one

/-- If the archiver is not called, no archive is found. -/
theorem Course.not_finds (course : Course runner config options cwd state outcome calls after)
    (short : calls.length ≤ 2) (job : Job) (id : UInt64) (archive : Path) :
    ¬ Finds runner config options cwd state job id archive := by
  intro finds
  have alone := course.not_asks
  cases course with
  | unlisted _ | noRun _ _ | located _ _ => exact alone rfl job id finds.1
  | undownloaded asks failed =>
    obtain ⟨rfl, rfl⟩ := asks_unique asks finds.1
    rw [finds.2.2.1] at failed
    cases failed
  | downloaded asks fetched stays =>
    obtain ⟨rfl, rfl⟩ := asks_unique asks finds.1
    exact stays archive finds
  | unextracted _ _ | extracted _ _ => simp at short

/-- The id of the download call, if there is one, is the one that is asked for. -/
theorem Course.downloads_iff (course : Course runner config options cwd state outcome calls after)
    (id : UInt64) : downloadRequest config cwd id ∈ calls.map (·.request) ↔
      ∃ job, Asks runner config options cwd state job id := by
  have same {job : Job} {known : UInt64} (asks : Asks runner config options cwd state job known) :
      id = known ↔ ∃ job, Asks runner config options cwd state job id := by
    constructor
    · rintro rfl
      exact ⟨job, asks⟩
    · rintro ⟨_, other⟩
      exact (asks_unique other asks).2
  have list := downloadRequest_ne_listRequest config cwd id
  have unpack := downloadRequest_ne_unpackRequest config cwd id
  have alone := course.not_asks
  cases course with
  | unlisted _ | noRun _ _ | located _ _ => simp [list, alone]
  | undownloaded asks _ | downloaded asks _ _ => simp [list, downloadRequest_inj, same asks]
  | unextracted finds _ | extracted finds _ =>
    simp [list, unpack, downloadRequest_inj, same finds.1]

/-- The archiver is called exactly for an archive that is found. -/
theorem Course.unpacks_iff (course : Course runner config options cwd state outcome calls after)
    {request : ToolRequest} (archived : request.program = archiver) :
    request ∈ calls.map (·.request) ↔ ∃ job id archive,
      Finds runner config options cwd state job id archive ∧
        request = unpackRequest cwd archive := by
  have list : request ≠ listRequest config cwd := by
    rintro rfl
    simp [listRequest, hubProgram, archiver] at archived
  have download (id : UInt64) : request ≠ downloadRequest config cwd id := by
    rintro rfl
    simp [downloadRequest, hubProgram, archiver] at archived
  have same {job : Job} {id : UInt64} {archive : Path}
      (finds : Finds runner config options cwd state job id archive) :
      request = unpackRequest cwd archive ↔ ∃ job id archive,
        Finds runner config options cwd state job id archive ∧
          request = unpackRequest cwd archive := by
    constructor
    · rintro rfl
      exact ⟨job, id, archive, finds, rfl⟩
    · rintro ⟨_, _, _, other, rfl⟩
      rw [finds_unique finds other]
  have short := course.not_finds
  cases course with
  | unlisted _ | noRun _ _ | located _ _ | undownloaded _ _ | downloaded _ _ _ =>
    simp [list, download, short]
  | unextracted finds _ | extracted finds _ => simp [list, download, same finds]

theorem Course.downloads_of (course : Course runner config options cwd state outcome calls after) :
    Downloads config cwd calls ↔
      (∃ job, outcome = .downloaded job) ∨ ∃ job archive, outcome = .extracted job archive := by
  have list (id : UInt64) : listRequest config cwd ≠ downloadRequest config cwd id :=
    (downloadRequest_ne_listRequest config cwd id).symm
  unfold Downloads
  cases course <;> simp [list, downloadRequest_inj]

theorem Course.followsProtocol (course : Course runner config options cwd state outcome calls after) :
    FollowsProtocol runner config options cwd state outcome calls where
  order := by
    cases course with
    | unlisted _ | noRun _ _ | located _ _ =>
      exact ⟨0, cwd, List.prefix_append _ [downloadRequest config cwd 0, unpackRequest cwd cwd]⟩
    | undownloaded _ _ | downloaded _ _ _ =>
      exact ⟨_, cwd, List.prefix_append _ [unpackRequest cwd cwd]⟩
    | unextracted _ _ | extracted _ _ => exact ⟨_, _, List.prefix_refl _⟩
  lists := by cases course <;> exact List.mem_cons_self
  downloads := course.downloads_iff
  unpacks := fun _ => course.unpacks_iff
  unavailable := by
    simp only [← course.job_iff]
    cases outcome <;> simp [Outcome.job?]
  located := by
    simp only [← course.job_iff, course.downloads_of]
    cases outcome <;> simp [Outcome.job?]
  downloaded := by
    rw [course.downloads_of]
    cases outcome <;> simp
  extracted := by cases course <;> simp
  archive := by
    intro job archive same
    cases course with
    | extracted finds _ => cases same; exact ⟨_, finds⟩
    | _ => cases same
  job := course.job_iff

/-- Unpacking alone is not acted on. -/
theorem locate_without_download (runner : ToolRunner σ) (config : BaselineConfig) (cwd : Path)
    (state : σ) (extract : Bool) :
    locate runner config ⟨false, extract⟩ cwd state = locate runner config {} cwd state := by
  unfold locate
  simp only [Bool.false_eq_true, if_false]

/-- Whatever the tools do, a lookup calls them in order, each one exactly if the ones before it
gave what it needs; its outcome is told by the calls that were made and by those that succeeded;
to ask for unpacking alone is to ask for neither; and the command ends well once it has its
workspace. -/
theorem lookup_protocol (runner : ToolRunner σ) (config : BaselineConfig) (options : Options)
    (cwd : Path) (state : σ) :
    (∃ calls, FollowsProtocol runner config options cwd state
          (locate runner config options cwd state).outcome calls ∧
        locate runner.recorded config options cwd (state, []) =
          ⟨(locate runner config options cwd state).outcome,
            (locate runner config options cwd state).notices,
            ((locate runner config options cwd state).state, calls)⟩) ∧
      (∀ extract, locate runner config ⟨false, extract⟩ cwd state =
        locate runner config {} cwd state) ∧
      ∀ repositories here asked w,
        (Workspace.openAt ⟨runner.files state, repositories, here⟩ asked
          (Path.ofPlace here)).result = .ok w →
        (Command.locateBaseline runner repositories here asked options state).1.exitStatus = 0 := by
  obtain ⟨calls, course, recorded⟩ := takesCourse_locate runner config options cwd state
  refine ⟨⟨calls, course.followsProtocol, recorded⟩,
    locate_without_download runner config cwd state, ?_⟩
  intro repositories here asked w opened
  rw [CommandRun.exitStatus, locateBaseline_result opened]
  rfl

end

/-- What a listing of one run prints. -/
def listedRun : String := "[\x7b\"databaseId\": 7\x7d]"

/-- What a download of one archive leaves. -/
def deliveredTree : FileTree := ⟨[
  ([Utf8.encode "baseline-icount-1"], .directory),
  (["baseline-icount-1", "baseline-icount-1.tar.xz"].map Utf8.encode, .file [] false)]⟩

/-- Tools that list a run and deliver an archive, and that succeed in all else. -/
def deliveringTools : ToolRunner FileTree where
  output := fun _ _ _ t => ⟨.ok listedRun, [], t⟩
  status := fun program _ _ t => ⟨.ok (), [], if program = hubProgram then deliveredTree else t⟩
  files := id

/-- From a workspace without a file to a baseline that is unpacked. -/
theorem deliveringTools_protocol :
    (Workspace.openAt ⟨.empty, [], []⟩ none (Path.ofPlace [])).result =
        .ok ⟨Path.ofString "/", {}⟩ ∧
      (locate deliveringTools {} ⟨true, true⟩ (Path.ofPlace []) .empty).outcome =
        .extracted { databaseId := some 7 }
          (Path.ofString "baseline-icount-1/baseline-icount-1.tar.xz") ∧
      (locate deliveringTools.recorded {} ⟨true, true⟩ (Path.ofPlace [])
        (.empty, [])).state.2.length = 3 ∧
      (Command.locateBaseline deliveringTools [] [] none ⟨true, true⟩ .empty).1.exitStatus = 0 := by
  have opened : (Workspace.openAt ⟨.empty, [], []⟩ none (Path.ofPlace [])).result =
      .ok ⟨Path.ofString "/", {}⟩ := by
    cbv
  have first : (latest listedRun).1 = some { databaseId := some 7 } := by
    decide +kernel
  have found : (newestArchive deliveredTree (Path.ofPlace [])
      ({} : BaselineConfig).artifactGlob).1 =
        some (Path.ofString "baseline-icount-1/baseline-icount-1.tar.xz") := by
    cbv
  have outcome : (locate deliveringTools {} ⟨true, true⟩ (Path.ofPlace []) .empty).outcome =
      .extracted { databaseId := some 7 }
        (Path.ofString "baseline-icount-1/baseline-icount-1.tar.xz") := by
    simp [locate, fetch, unpack, deliveringTools, Lookup.after, first, found]
  obtain ⟨⟨calls, follows, recorded⟩, _, ends⟩ :=
    lookup_protocol deliveringTools {} ⟨true, true⟩ (Path.ofPlace []) .empty
  have three : calls.length = 3 := (follows.extracted.1 ⟨_, _, outcome⟩).1
  exact ⟨opened, outcome, by rw [recorded, three], ends [] [] none _ opened⟩

end RoutineWatch.Baseline
