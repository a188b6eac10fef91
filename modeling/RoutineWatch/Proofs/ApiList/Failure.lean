import RoutineWatch.Proofs.ApiList.Artifacts
import RoutineWatch.Proofs.ApiList.Run

/-!
# Regenerations that fail

The files are written one after the other, in their places, and nothing is taken back. What a
run leaves that fails is told against the files as the documentation tool leaves them.

- `Command.Unwritten`: what a write leaves that fails. Either no file is touched, or a fault of
  the file system has broken the write off, and the file holds the start of what it should.
- `Command.HalfWritten`: the function list is complete and new, and the definitions are not
  written.
- `Command.failed_regeneration`: one of the two is all that a failing run can leave, and no
  file but the two is ever touched.
- `Command.failed_regeneration_loses_list`: so the checked-in files need not be what they were,
  be it that the definitions are obstructed or broken off, or that the tool writes files
  itself.
-/
namespace RoutineWatch.Command
open FileTree

/-- Of two trees: all regular files are the same. -/
def SameFiles (t t' : FileTree) : Prop := ∀ place, t'.contents? place = t.contents? place

/-- Of two trees: in the second one a path leads to a file with some contents, and all other
files are the same. -/
structure Written (here : Place) (p : Path) (contents : Bytes) (place : Place)
    (t t' : FileTree) : Prop where
  located : t'.locate? here p = .ok place
  held : t'.contents? place = some contents
  others : ∀ other, other ≠ place → t'.contents? other = t.contents? other

/-- Of two trees: what a write leaves that fails. -/
inductive Unwritten (faults : Faults) (here : Place) (p : Path) (contents : Bytes)
    (t t' : FileTree) : Prop
  | untouched (same : SameFiles t t')
  | brokenOff (between : FileTree) (place : Place) (kept : Nat) (cause : IoCause)
      (fault : faults.file between place contents = some (.brokenOff kept cause))
      (start : Written here p (contents.take kept) place t t')

/-- Of two trees: the second one has the function list of a registry where the first one
may have another one or none, and the write of the definitions after that failed. -/
structure HalfWritten (faults : Faults) (here : Place) (w : Workspace) (registry : Registry)
    (t t' : FileTree) : Prop where
  listed : ∃ between place,
    Written here w.functionListPath (Utf8.encode registry.functionList) place t between ∧
      t'.locate? here w.functionListPath = .ok place ∧
      Unwritten faults here w.definitionsPath (Utf8.encode registry.render) between t'

theorem sameFiles_of_changes {t t' : FileTree} (changes : Changes (fun _ => False) t t') :
    SameFiles t t' :=
  fun _ => changes.contents?_eq not_false

theorem written_of_changes {t t' : FileTree} {here place : Place} {p : Path} {contents : Bytes}
    (changes : Changes (· = place) t t') (located : t'.locate? here p = .ok place)
    (held : t'.contents? place = some contents) : Written here p contents place t t' :=
  ⟨located, held, fun _ apart => changes.contents?_eq apart⟩

/-- What a write leaves that fails, and that paths lead where they led. -/
theorem unwritten_of_write {t t' : FileTree} {faults : Faults} {here : Place} {a : Artifact}
    {e : Error} (failed : a.write t faults here = (t', .error e)) :
    Unwritten faults here a.path (Utf8.encode a.contents) t t' ∧ Keeps t t' := by
  rcases Artifact.write_error failed with
    changes | ⟨between, place, kept, cause, fault, changes, located, held⟩
  · exact ⟨.untouched (sameFiles_of_changes changes), changes.keeps⟩
  · exact ⟨.brokenOff between place kept cause fault (written_of_changes changes located held),
      changes.keeps⟩

/-- What a write of the two files leaves that fails. -/
theorem writeAll_failed {t t' : FileTree} {faults : Faults} {here : Place} {w : Workspace}
    {registry : Registry} {e : Error} {notices : List Notice}
    (run : Artifact.writeAll t faults here (Artifact.ofRegistry w registry) =
      (t', .error e, notices)) :
    Unwritten faults here w.functionListPath (Utf8.encode registry.functionList) t t' ∨
      HalfWritten faults here w registry t t' := by
  obtain ⟨done, stuck, rest, between, earlier, whole, before, failed⟩ :=
    Artifact.writeAll_error run
  obtain ⟨left, keeps⟩ := unwritten_of_write failed
  match done, whole with
  | [], whole =>
    cases before
    obtain ⟨rfl, _⟩ : stuck = _ ∧ _ := by
      simpa [Artifact.ofRegistry, eq_comm] using whole
    exact Or.inl left
  | [list], whole =>
    obtain ⟨rfl, rfl, _⟩ : list = _ ∧ stuck = _ ∧ rest = [] := by
      simpa [Artifact.ofRegistry, eq_comm] using whole
    obtain ⟨places, changes, located, contents⟩ := Artifact.writeAll_ok before
    obtain ⟨place, _, found, none, rfl⟩ := List.forall₂_cons_left_iff.1 located
    cases List.forall₂_nil_left_iff.1 none
    have held := contents (List.pairwise_singleton _ place)
    rw [List.forall₂_cons] at held
    have only : Changes (· = place) t between := changes.mono fun _ => List.mem_singleton.1
    exact Or.inr ⟨between, place, written_of_changes only found held.1, keeps.locate? found, left⟩
  | _ :: _ :: _, whole => simp [Artifact.ofRegistry] at whole

/-- A regeneration that fails leaves all files as the tools left them, or it has extracted a
registry and failed to write the function list or, with that written, the definitions. -/
theorem failed_regeneration {σ : Type} {runner : ToolRunner σ} {repositories : List Repository}
    {here : Place} {asked : Option Path} {colored : Bool} {state after : σ} {run : CommandRun}
    (ran : updateApiList runner repositories here asked false colored state = (run, after))
    (failed : run.result ≠ .ok .success) :
    SameFiles (runner.files after) run.tree ∨
      ∃ w registry, Extracts runner repositories here asked state w registry ∧
        (Unwritten (runner.faults after) here w.functionListPath
            (Utf8.encode registry.functionList) (runner.files after) run.tree ∨
          HalfWritten (runner.faults after) here w registry (runner.files after) run.tree) := by
  rcases updateApiList_cases runner repositories here asked false colored state with
    ⟨e, notices, last, early⟩ | ⟨w, registry, extracts⟩
  · rw [early] at ran
    cases ran
    exact Or.inl fun _ => rfl
  · have late := extracts.updateApiList_eq false colored
    rw [late] at ran
    cases ran
    obtain ⟨⟨t', result, more⟩, written⟩ : ∃ r, Artifact.writeAll
        (runner.files (extractRegistry runner here w state).state)
        (runner.faults (extractRegistry runner here w state).state) here
        (Artifact.ofRegistry w registry) = r := ⟨_, rfl⟩
    simp only [Bool.false_eq_true, if_false, writeArtifacts, written] at failed ⊢
    cases result with
    | ok _ => exact absurd rfl failed
    | error e => exact Or.inr ⟨w, registry, extracts, writeAll_failed written⟩

/-! Definitions that are obstructed or broken off -/

def listPlace : Place := ["etc", "function-list.txt"].map Utf8.encode

def definitionsPlace : Place := ["etc", "function-definitions.json"].map Utf8.encode

/-- An old function list, and something where the definitions belong. -/
def agedTree (definitions : FileNode) : FileTree := ⟨[
  ([Utf8.encode "etc"], .directory),
  (listPlace, .file (Utf8.encode "old\n") false),
  (definitionsPlace, definitions)]⟩

/-- There is no space left for the definitions once their file has been emptied. -/
def fullDisk : Faults where
  directory := fun _ _ => none
  file := fun _ place _ => bif place == definitionsPlace then some (.brokenOff 0 (.os 28)) else none

/-- Tools that print an empty documentation index, on a file system with these faults. -/
def emptyIndex (faults : Faults) : ToolRunner FileTree :=
  { ToolRunner.printing "\x7b\x7d" with faults := fun _ => faults }

/-- Regenerating there. -/
def agedRun (faults : Faults) (definitions : FileNode) : CommandRun :=
  (updateApiList (emptyIndex faults) [] [] none false false (agedTree definitions)).1

/-- What the run comes to is a matter of writing the two files. -/
theorem agedRun_eq {faults : Faults} {definitions : FileNode} {t' : FileTree} {e : Error}
    {notices : List Notice}
    (extracts : Extracts (emptyIndex faults) [] [] none (agedTree definitions)
      ⟨Path.ofString "/", {}⟩ TextMap.empty)
    (written : Artifact.writeAll (agedTree definitions) faults []
      [⟨Path.ofString "/etc/function-list.txt", Registry.functionList TextMap.empty⟩,
        ⟨Path.ofString "/etc/function-definitions.json", Registry.render TextMap.empty⟩] =
      (t', .error e, notices)) :
    updateApiList (emptyIndex faults) [] [] none false false (agedTree definitions) =
        (agedRun faults definitions, agedTree definitions) ∧
      (agedRun faults definitions).result = .error e ∧ (agedRun faults definitions).tree = t' := by
  have run := extracts.updateApiList_eq false false
  have list : (Path.ofString "/").join (Path.ofString "etc/function-list.txt") =
      Path.ofString "/etc/function-list.txt" := by decide +kernel
  have definitions : (Path.ofString "/").join (Path.ofString "etc/function-definitions.json") =
      Path.ofString "/etc/function-definitions.json" := by decide +kernel
  rw [agedRun, run, extractRegistry_state]
  simp only [Bool.false_eq_true, if_false, writeArtifacts, Artifact.ofRegistry, list, definitions,
    emptyIndex, ToolRunner.printing, id, written, and_true]
  exact ⟨trivial, rfl⟩

theorem obstructed_extracts : Extracts (emptyIndex .none) [] [] none (agedTree .directory)
    ⟨Path.ofString "/", {}⟩ TextMap.empty where
  opened := by cbv
  extracted := by cbv

/-- Whatever the contents are, only the first file is written over a directory. -/
theorem writeAll_obstructed (list definitions : String) :
    Artifact.writeAll (agedTree .directory) .none []
        [⟨Path.ofString "/etc/function-list.txt", list⟩,
          ⟨Path.ofString "/etc/function-definitions.json", definitions⟩] =
      ((agedTree .directory).put listPlace (.file (Utf8.encode list) false),
        .error (.io (Path.ofString "/etc/function-definitions.json") (.os SystemError.isDirectory)),
        [.info "writing /etc/function-list.txt",
          .info "writing /etc/function-definitions.json"]) := by
  cbv

/-- The definitions that the full disk breaks off. -/
def oldDefinitions : FileNode := .file (Utf8.encode "\x7b \x7d\n") false

theorem brokenOff_extracts : Extracts (emptyIndex fullDisk) [] [] none (agedTree oldDefinitions)
    ⟨Path.ofString "/", {}⟩ TextMap.empty where
  opened := by cbv
  extracted := by cbv

/-- Whatever the contents are, a full disk keeps none of the definitions. -/
theorem writeAll_brokenOff (list definitions : String) :
    Artifact.writeAll (agedTree oldDefinitions) fullDisk []
        [⟨Path.ofString "/etc/function-list.txt", list⟩,
          ⟨Path.ofString "/etc/function-definitions.json", definitions⟩] =
      (((agedTree oldDefinitions).put listPlace (.file (Utf8.encode list) false)).put
          definitionsPlace (.file [] false),
        .error (.io (Path.ofString "/etc/function-definitions.json") (.os 28)),
        [.info "writing /etc/function-list.txt",
          .info "writing /etc/function-definitions.json"]) := by
  cbv

/-- Tools that write a function list of their own and fail. -/
def meddlingRunner : ToolRunner FileTree where
  output := fun program _ _ t =>
    ⟨.error (.tool program "exit status: 1"), [],
      t.put listPlace (.file (Utf8.encode "new\n") false)⟩
  status := fun _ _ _ t => ⟨.ok (), [], t⟩
  files := id

def meddledRun : CommandRun :=
  (updateApiList meddlingRunner [] [] none false false (agedTree .directory)).1

theorem meddledRun_eq :
    meddledRun.result = .error (.tool "rustdoc" "exit status: 1") ∧
      meddledRun.tree.contents? listPlace = some (Utf8.encode "new\n") := by
  constructor <;> cbv

/-- The checked-in files are lost although the run fails: the function list, with a directory
in the place of the definitions or to a tool that writes it, and the definitions, when the
disk is full. -/
theorem failed_regeneration_loses_list :
    ((agedTree .directory).contents? listPlace = some (Utf8.encode "old\n") ∧
      (agedRun .none .directory).result ≠ .ok .success ∧
        (agedRun .none .directory).tree.contents? listPlace =
          some (Utf8.encode (Registry.listHeader ++ "\n"))) ∧
      (meddledRun.result ≠ .ok .success ∧
        meddledRun.tree.contents? listPlace = some (Utf8.encode "new\n")) ∧
      (agedTree oldDefinitions).contents? definitionsPlace = some (Utf8.encode "\x7b \x7d\n") ∧
        (agedRun fullDisk oldDefinitions).result ≠ .ok .success ∧
          (agedRun fullDisk oldDefinitions).tree.contents? definitionsPlace = some [] := by
  obtain ⟨_, result, tree⟩ := agedRun_eq obstructed_extracts (writeAll_obstructed _ _)
  obtain ⟨_, result', tree'⟩ := agedRun_eq brokenOff_extracts (writeAll_brokenOff _ _)
  refine ⟨⟨by decide +kernel, by simp [result], ?_⟩, ⟨by simp [meddledRun_eq.1], meddledRun_eq.2⟩,
    by decide +kernel, by simp [result'], ?_⟩
  · rw [tree]
    decide +kernel
  · rw [tree']
    decide +kernel

/-- There a run fails with the function list written and the definitions cut off. -/
theorem brokenOff_regeneration :
    updateApiList (emptyIndex fullDisk) [] [] none false false (agedTree oldDefinitions) =
        (agedRun fullDisk oldDefinitions, agedTree oldDefinitions) ∧
      (agedRun fullDisk oldDefinitions).result ≠ .ok .success ∧
      (SameFiles (agedTree oldDefinitions) (agedRun fullDisk oldDefinitions).tree ∨
        ∃ w registry,
          Extracts (emptyIndex fullDisk) [] [] none (agedTree oldDefinitions) w registry ∧
          (Unwritten fullDisk [] w.functionListPath (Utf8.encode registry.functionList)
              (agedTree oldDefinitions) (agedRun fullDisk oldDefinitions).tree ∨
            HalfWritten fullDisk [] w registry (agedTree oldDefinitions)
              (agedRun fullDisk oldDefinitions).tree)) := by
  obtain ⟨ran, result, _⟩ := agedRun_eq brokenOff_extracts (writeAll_brokenOff _ _)
  have failed : (agedRun fullDisk oldDefinitions).result ≠ .ok .success := by
    simp [result]
  exact ⟨ran, failed, failed_regeneration ran failed⟩

end RoutineWatch.Command
