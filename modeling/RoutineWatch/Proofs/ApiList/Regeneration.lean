import RoutineWatch.Proofs.ApiList.Artifacts
import RoutineWatch.Proofs.ApiList.Reopening
import RoutineWatch.Proofs.ApiList.Run
import RoutineWatch.Proofs.ApiList.Sources
import RoutineWatch.Proofs.Extraction.SharedChange
import RoutineWatch.Proofs.Registry.Stored
import RoutineWatch.Proofs.Text.Lines
import RoutineWatch.Proofs.Text.RoundTrip
import RoutineWatch.Registry

/-!
# Regenerating the files and using them

A run that succeeds leaves files with which a comparison is content, from which the registry
is read back, and which list its names. The extraction is the same in the tree it has written
to, as long as the files are no input of it and what it looks for is not made by writing them.

- `Command.regeneration_written`: what a run that succeeds has done.
- `Command.Extracts.again`: an extraction yields the same again.
- `Command.regenerated_files_agree`: the commands that use the files agree with the run.
- `Command.regenerated_files_disagree`: two workspaces in which the files that are written
  change what is looked for, and the comparison is not content.
-/
namespace RoutineWatch

/-! The lines of the function list -/

theorem Line.atLineFeed_lines {lines : List String} (single : ∀ line ∈ lines, '\n' ∉ line.toList) :
    atLineFeed (String.join (lines.map (· ++ "\n"))).toList =
      lines.map fun line => (line ++ "\n").toList := by
  rw [String.toList_join]
  induction lines with
  | nil => rfl
  | cons line lines ih =>
    obtain ⟨first, others⟩ := List.forall_mem_cons.1 single
    rw [List.map_cons, List.flatMap_cons, List.map_cons, ← ih others]
    simpa using atLineFeed_line first _

/-- The function list is the header and the names, a line each. -/
theorem Registry.functionList_lines {registry : Registry}
    (single : ∀ name ∈ registry.keys, '\n' ∉ name.toList) :
    Line.atLineFeed registry.functionList.toList =
      (listHeader ++ "\n").toList :: registry.keys.map fun name => (name ++ "\n").toList := by
  have header : '\n' ∉ listHeader.toList := by decide
  rw [← Line.atLineFeed_lines single, functionList]
  simpa using Line.atLineFeed_line header _

namespace Command
open FileTree Workspace

/-- Two runners call the documentation tool for a workspace: it prints the same, and leaves
the files to the command. -/
structure SameDocumentation {σ τ : Type} (runner : ToolRunner σ) (again : ToolRunner τ)
    (w : Workspace) (state : σ) (later : τ) : Prop where
  text : (again.output DocIndex.builder w.config.api.docArguments w.root later).result =
    (runner.output DocIndex.builder w.config.api.docArguments w.root state).result
  untouched : runner.files
    (runner.output DocIndex.builder w.config.api.docArguments w.root state).state =
      runner.files state
  untouchedAgain : again.files
    (again.output DocIndex.builder w.config.api.docArguments w.root later).state =
      again.files later

section
variable {σ : Type} {runner : ToolRunner σ} {repositories : List Repository} {here : Place}
  {asked : Option Path} {state after : σ} {w : Workspace} {run : CommandRun}

/-- What a regeneration that succeeds has done: both files are found by their paths, and if
they are different ones, each has the contents that the registry has in it. -/
theorem regeneration_written {colored : Bool}
    (opened : (openAt ⟨runner.files state, repositories, here⟩ asked (Path.ofPlace here)).result =
      .ok w)
    (ran : updateApiList runner repositories here asked false colored state = (run, after))
    (succeeded : run.result = .ok .success) :
    ∃ registry list definitions, Extracts runner repositories here asked state w registry ∧
      Changes (· ∈ [list, definitions])
        (runner.files (extractRegistry runner here w state).state) run.tree ∧
      run.tree.locate? here w.functionListPath = .ok list ∧
      run.tree.locate? here w.definitionsPath = .ok definitions ∧
      (list ≠ definitions →
        run.tree.contents? list = some (Utf8.encode registry.functionList) ∧
        run.tree.contents? definitions = some (Utf8.encode registry.render)) := by
  rcases updateApiList_cases runner repositories here asked false colored state with
    ⟨e, notices, last, early⟩ | ⟨w', registry, extracts⟩
  · rw [early] at ran
    cases ran
    cases succeeded
  · cases Except.ok.inj (opened.symm.trans extracts.opened)
    have late := extracts.updateApiList_eq false colored
    rw [late] at ran
    cases ran
    obtain ⟨⟨t', result, more⟩, written⟩ : ∃ r, Artifact.writeAll
        (runner.files (extractRegistry runner here w state).state)
        (runner.faults (extractRegistry runner here w state).state) here
        (Artifact.ofRegistry w registry) = r := ⟨_, rfl⟩
    simp only [Bool.false_eq_true, if_false, writeArtifacts, written] at succeeded ⊢
    cases result with
    | error e => cases succeeded
    | ok _ =>
      obtain ⟨places, changes, located, contents⟩ := Artifact.writeAll_ok written
      obtain ⟨list, _, listed, others, rfl⟩ := List.forall₂_cons_left_iff.1 located
      obtain ⟨definitions, _, defined, none, rfl⟩ := List.forall₂_cons_left_iff.1 others
      cases List.forall₂_nil_left_iff.1 none
      refine ⟨registry, list, definitions, extracts, changes, listed, defined, fun distinct => ?_⟩
      have held := contents (by simp [distinct])
      simpa [Artifact.ofRegistry] using held

/-- A run that can write the files succeeds. -/
theorem Extracts.regenerated {registry : Registry} {t' : FileTree}
    (extracts : Extracts runner repositories here asked state w registry)
    (written : ∃ more, Artifact.writeAll (runner.files (extractRegistry runner here w state).state)
      (runner.faults (extractRegistry runner here w state).state) here
      (Artifact.ofRegistry w registry) = (t', .ok (), more)) (colored : Bool) :
    (updateApiList runner repositories here asked false colored state).1.result = .ok .success ∧
      (updateApiList runner repositories here asked false colored state).1.tree = t' := by
  obtain ⟨more, written⟩ := written
  rw [extracts.updateApiList_eq]
  simp [writeArtifacts, written, Except.map]

/-- A comparison is not content with a file that has other contents. -/
theorem Extracts.check_stale {registry : Registry} {a : Artifact}
    (extracts : Extracts runner repositories here asked state w registry)
    (member : a ∈ Artifact.ofRegistry w registry)
    (stale : Artifact.checkedIn (runner.files (extractRegistry runner here w state).state) here a ≠
      .ok a.contents) (colored : Bool) :
    (updateApiList runner repositories here asked true colored state).1.result ≠ .ok .success := by
  intro content
  rw [extracts.updateApiList_eq, if_pos rfl] at content
  unfold checkArtifacts at content
  dsimp only at content
  split at content
  · cases content
  · next readable =>
    split at content
    · next upToDate => exact stale (Artifact.checkedIn_of_compareAll readable upToDate a member)
    · cases content

/-- An extraction yields the same again in a tree in which other files were written. -/
theorem Extracts.again {τ : Type} {again : ToolRunner τ} {later : τ} {registry : Registry}
    {written : Place → Prop}
    (extracts : Extracts runner repositories here asked state w registry)
    (same : SameDocumentation runner again w state later)
    (changes : Changes written (runner.files state) (again.files later))
    (apartConfig : ∀ path, resolveConfig ⟨runner.files state, repositories, here⟩ asked
        (Path.ofPlace here) = .ok (some path) →
      ∀ place, (runner.files state).locate? here path = .ok place → ¬ written place)
    (apartSources : ∀ top, (again.files later).locate? here w.architecturePath = .ok top →
      ∀ place, written place → ¬ SourceScan.IsSourcePlace top place)
    (search : asked = none → SameSearch ⟨runner.files state, repositories, here⟩
      (again.files later) (Path.ofPlace here))
    (architecture : (runner.files state).isDirectory here w.architecturePath = true ∨
      (SourceScan.load (again.files later) here w.root w.config.api.archDir).1 = .ok []) :
    Extracts again repositories here asked later w registry where
  opened := ((opens_of_openAt extracts.opened).again changes apartConfig search).openAt_eq
  extracted := by
    obtain ⟨text, index, files, printed, parsed, loaded, rfl⟩ :=
      extractRegistry_eq_ok_iff.1 extracts.extracted
    rw [extractRegistry_state, same.untouched] at loaded
    refine extractRegistry_eq_ok_iff.2
      ⟨text, index, files, same.text.trans printed, parsed, ?_, rfl⟩
    rw [extractRegistry_state, same.untouchedAgain,
      SourceScan.load_of_changes changes apartSources architecture, loaded]

/-- Comparing with a registry whose files have the contents that it has in them. -/
theorem Extracts.check_fresh {registry : Registry}
    (extracts : Extracts runner repositories here asked state w registry)
    (untouched : runner.files (extractRegistry runner here w state).state = runner.files state)
    (listed : (runner.files state).readText here w.functionListPath = .ok registry.functionList)
    (defined : (runner.files state).readText here w.definitionsPath = .ok registry.render)
    (colored : Bool) :
    (updateApiList runner repositories here asked true colored state).1 =
      ⟨.ok .success, (if colored then String.ofList Style.reset else "") ++ freshText,
        noticesBefore runner repositories here asked state w, runner.files state⟩ := by
  have fresh : ∀ a ∈ Artifact.ofRegistry w registry,
      (runner.files state).readText here a.path = .ok a.contents := by
    simp [Artifact.ofRegistry, listed, defined]
  rw [extracts.updateApiList_eq, untouched]
  simp [checkArtifacts, Artifact.compareAll_fresh fresh]

end

/-- A regeneration that succeeds, and the commands that use its files agree: a comparison
with the same documentation is content and changes nothing, the definitions are read back as
the registry that was extracted, and the function list has its names, a line each. -/
theorem regenerated_files_agree {σ τ : Type} {runner : ToolRunner σ} {again : ToolRunner τ}
    {repositories : List Repository} {here : Place} {asked : Option Path} {colored recolored : Bool}
    {state after : σ} {later : τ} {run : CommandRun} {w : Workspace} {list definitions : Place}
    (opened : (openAt ⟨runner.files state, repositories, here⟩ asked (Path.ofPlace here)).result =
      .ok w)
    (ran : updateApiList runner repositories here asked false colored state = (run, after))
    (succeeded : run.result = .ok .success)
    (resulting : again.files later = run.tree)
    (same : SameDocumentation runner again w state later)
    (listed : run.tree.locate? here w.functionListPath = .ok list)
    (defined : run.tree.locate? here w.definitionsPath = .ok definitions)
    (distinct : list ≠ definitions)
    (apartConfig : ∀ path, resolveConfig ⟨runner.files state, repositories, here⟩ asked
        (Path.ofPlace here) = .ok (some path) →
      ∀ place, (runner.files state).locate? here path = .ok place →
        place ≠ list ∧ place ≠ definitions)
    (apartSources : ∀ top, run.tree.locate? here w.architecturePath = .ok top →
      ¬ SourceScan.IsSourcePlace top list ∧ ¬ SourceScan.IsSourcePlace top definitions)
    (search : asked = none → SameSearch ⟨runner.files state, repositories, here⟩ run.tree
      (Path.ofPlace here))
    (architecture : (runner.files state).isDirectory here w.architecturePath = true ∨
      (SourceScan.load run.tree here w.root w.config.api.archDir).1 = .ok []) :
    ∃ registry, Extracts runner repositories here asked state w registry ∧
      (updateApiList again repositories here asked true recolored later).1 =
        ⟨.ok .success, (if recolored then String.ofList Style.reset else "") ++ freshText,
          noticesBefore again repositories here asked later w, run.tree⟩ ∧
      Registry.load run.tree here w.definitionsPath =
        .ok (registry.erase Registry.commentKey, []) ∧
      registry.keys.Pairwise (· < ·) ∧
      ((∀ name ∈ registry.keys, '\n' ∉ name.toList) →
        ∃ text, run.tree.readText here w.functionListPath = .ok text ∧
          Line.atLineFeed text.toList = (Registry.listHeader ++ "\n").toList ::
            registry.keys.map fun name => (name ++ "\n").toList) := by
  obtain ⟨registry, _, _, extracts, changes, listed', defined', contents⟩ :=
    regeneration_written opened ran succeeded
  cases Except.ok.inj (listed.symm.trans listed')
  cases Except.ok.inj (defined.symm.trans defined')
  obtain ⟨first, second⟩ := contents distinct
  have readList : run.tree.readText here w.functionListPath = .ok registry.functionList :=
    readText_eq_ok_iff.2 ⟨_, readBytes_eq_ok_iff.2 ⟨list, listed, first⟩, Utf8.decode?_encode _⟩
  have readDefinitions : run.tree.readText here w.definitionsPath = .ok registry.render :=
    readText_eq_ok_iff.2 ⟨_, readBytes_eq_ok_iff.2 ⟨definitions, defined, second⟩,
      Utf8.decode?_encode _⟩
  rw [extractRegistry_state, same.untouched, ← resulting] at changes
  have reextracts : Extracts again repositories here asked later w registry := by
    refine extracts.again same changes ?_ ?_ (by rwa [resulting]) (by rwa [resulting])
    · intro path resolved place located written
      obtain ⟨notList, notDefinitions⟩ := apartConfig path resolved place located
      rcases List.mem_pair.1 written with rfl | rfl
      · exact notList rfl
      · exact notDefinitions rfl
    · intro top located place written
      rw [resulting] at located
      rcases List.mem_pair.1 written with rfl | rfl
      · exact (apartSources top located).1
      · exact (apartSources top located).2
  refine ⟨registry, extracts, ?_, ?_, registry.keys_ascending, fun single =>
    ⟨registry.functionList, readList, Registry.functionList_lines single⟩⟩
  · rw [← resulting] at readList readDefinitions ⊢
    refine reextracts.check_fresh ?_ readList readDefinitions recolored
    rw [extractRegistry_state, same.untouchedAgain]
  · rw [Registry.load, readDefinitions]
    simp only [Registry.parse_render]
    rfl

/-! Workspaces in which files that are written change what is looked for -/

/-- A run has written the two files of a workspace, and a comparison is not content. -/
structure Disagrees (run check : CommandRun) (here : Place) (w : Workspace)
    (list definitions : Place) : Prop where
  succeeded : run.result = .ok .success
  listed : run.tree.locate? here w.functionListPath = .ok list
  defined : run.tree.locate? here w.definitionsPath = .ok definitions
  stale : check.result ≠ .ok .success

def sampleConfigPath : Path := Path.ofString "/libm-ci.toml"

def sampleConfigPlace : Place := ["libm-ci.toml"].map Utf8.encode

/-- With a configuration at the root of the file system that is where the workspace is. -/
theorem openAt_sample {t : FileTree} {here : Place} {text : String} {config : Config}
    (found : findConfig ⟨t, [], here⟩ (Path.ofPlace here) = some sampleConfigPath)
    (located : t.locate? here sampleConfigPath = .ok sampleConfigPlace)
    (held : t.contents? sampleConfigPlace = some (Utf8.encode text))
    (parsed : Config.parse text sampleConfigPath = .ok config) :
    (openAt ⟨t, [], here⟩ none (Path.ofPlace here)).result = .ok ⟨Path.ofString "/", config⟩ := by
  have read : t.readText here sampleConfigPath = .ok text :=
    readText_eq_ok_iff.2 ⟨_, readBytes_eq_ok_iff.2 ⟨_, located, held⟩, Utf8.decode?_encode text⟩
  have above : sampleConfigPath.parent? = some (Path.ofString "/") := by decide +kernel
  have loaded : load ⟨t, [], here⟩ sampleConfigPath = .ok config := by
    rw [load, read]
    exact parsed
  have resolved : resolveConfig ⟨t, [], here⟩ none (Path.ofPlace here) =
      .ok (some sampleConfigPath) := congrArg Except.ok found
  rw [(Opens.configured resolved loaded).openAt_eq, findRoot, Option.bind_some, above]
  rfl

/-- Documentation of two functions, as the tool prints it. -/
def sampleText : String := Extraction.sampleIndex.root.compact

theorem parse_sampleText : DocIndex.parse sampleText = .ok Extraction.sampleIndex := by
  have whole : Extraction.sampleIndex.root.HasNaturals := by
    simp [Extraction.sampleIndex, Extraction.sampleFunction, Extraction.sampleUse, Json.HasNaturals,
      Json.MembersHaveNaturals]
  have low : Extraction.sampleIndex.root.height < Json.depthLimit := by decide +kernel
  have sorted : Extraction.sampleIndex.root.sorted = Extraction.sampleIndex.root := by cbv
  rw [sampleText, DocIndex.parse, Json.parse_compact whole low, sorted]
  rfl

/-- A configuration that says where the sources of the architectures are. -/
def archConfig (archDir : String) : String :=
  "version = 1\n[api]\narch_dir = \"" ++ archDir ++ "\"\nreexport_modules = [\"src/math.rs\"]\n"

def archWorkspace (archDir : String) : Workspace :=
  ⟨Path.ofString "/", { api := { archDir := archDir, reexportModules := ["src/math.rs"] } }⟩

/-- A configuration, and a source for one architecture. -/
def archTree (config : String) : FileTree := ⟨[
  (sampleConfigPlace, .file (Utf8.encode config) false),
  (["arch"].map Utf8.encode, .directory),
  (["arch", "x86.rs"].map Utf8.encode, .file (Utf8.encode "pub fn sin() \x7b\x7d\n") false)]⟩

/-- The same with the generated files. -/
def archTreeAfter (config list definitions : String) : FileTree :=
  ⟨(archTree config).entries ++ [
    (["etc"].map Utf8.encode, .directory),
    (["etc", "function-list.txt"].map Utf8.encode, .file (Utf8.encode list) false),
    (["etc", "function-definitions.json"].map Utf8.encode, .file (Utf8.encode definitions) false)]⟩

def archRegistry (archDir : String) (files : List SourceFile) : Registry :=
  Extraction.extract (archWorkspace archDir).config.api.rule Extraction.sampleIndex files

theorem archTree_extracts {archDir : String} {t : FileTree} {files : List SourceFile}
    (opened : (openAt ⟨t, [], []⟩ none (Path.ofPlace [])).result = .ok (archWorkspace archDir))
    (loaded : (SourceScan.load t [] (Path.ofString "/") archDir).1 = .ok files) :
    Extracts (.printing sampleText) [] [] none t (archWorkspace archDir)
      (archRegistry archDir files) where
  opened := opened
  extracted := by
    refine extractRegistry_eq_ok_iff.2
      ⟨sampleText, Extraction.sampleIndex, files, rfl, parse_sampleText, ?_, rfl⟩
    rw [extractRegistry_state]
    exact loaded

theorem archWorkspace_paths (archDir : String) :
    (archWorkspace archDir).functionListPath = Path.ofString "/etc/function-list.txt" ∧
      (archWorkspace archDir).definitionsPath = Path.ofString "/etc/function-definitions.json" := by
  have list : (Path.ofString "/").join (Path.ofString "etc/function-list.txt") =
      Path.ofString "/etc/function-list.txt" := by decide +kernel
  have definitions : (Path.ofString "/").join (Path.ofString "etc/function-definitions.json") =
      Path.ofString "/etc/function-definitions.json" := by decide +kernel
  exact ⟨list, definitions⟩

theorem writeAll_arch (config list definitions : String) :
    Artifact.writeAll (archTree config) .none []
        [⟨Path.ofString "/etc/function-list.txt", list⟩,
          ⟨Path.ofString "/etc/function-definitions.json", definitions⟩] =
      (archTreeAfter config list definitions, .ok (),
        [.info "writing /etc/function-list.txt",
          .info "writing /etc/function-definitions.json"]) := by
  cbv

/-- Regenerating with this configuration, and comparing afterwards. -/
def archRun (config : String) : CommandRun :=
  (updateApiList (.printing sampleText) [] [] none false false (archTree config)).1

def archCheck (config : String) : CommandRun :=
  (updateApiList (.printing sampleText) [] [] none true false (archRun config).tree).1

/-- Regenerating makes the generated files, whatever the registry is. -/
theorem archTree_regenerated {archDir config : String} {registry : Registry}
    (extracts : Extracts (.printing sampleText) [] [] none (archTree config) (archWorkspace archDir)
      registry) :
    (archRun config).result = .ok .success ∧
      (archRun config).tree = archTreeAfter config registry.functionList registry.render := by
  have written := writeAll_arch config registry.functionList registry.render
  rw [← (archWorkspace_paths archDir).1, ← (archWorkspace_paths archDir).2] at written
  refine extracts.regenerated ?_ false
  rw [extractRegistry_state]
  exact ⟨_, written⟩

theorem archTree_found (config : String) :
    findConfig ⟨archTree config, [], []⟩ (Path.ofPlace []) = some sampleConfigPath ∧
      (archTree config).locate? [] sampleConfigPath = .ok sampleConfigPlace ∧
      (archTree config).contents? sampleConfigPlace = some (Utf8.encode config) :=
  ⟨by cbv, by cbv, by cbv⟩

theorem archTreeAfter_found (config list definitions : String) :
    findConfig ⟨archTreeAfter config list definitions, [], []⟩ (Path.ofPlace []) =
        some sampleConfigPath ∧
      (archTreeAfter config list definitions).locate? [] sampleConfigPath = .ok sampleConfigPlace ∧
      (archTreeAfter config list definitions).contents? sampleConfigPlace =
        some (Utf8.encode config) :=
  ⟨by cbv, by cbv, by cbv⟩

theorem archTreeAfter_located (archDir config list definitions : String) :
    (archTreeAfter config list definitions).locate? [] (archWorkspace archDir).functionListPath =
        .ok (["etc", "function-list.txt"].map Utf8.encode) ∧
      (archTreeAfter config list definitions).locate? [] (archWorkspace archDir).definitionsPath =
        .ok (["etc", "function-definitions.json"].map Utf8.encode) := by
  rw [(archWorkspace_paths archDir).1, (archWorkspace_paths archDir).2]
  exact ⟨by cbv, by cbv⟩

theorem archTreeAfter_contents (config list definitions : String) :
    (archTreeAfter config list definitions).contents?
      (["etc", "function-definitions.json"].map Utf8.encode) = some (Utf8.encode definitions) := by
  cbv

theorem archTreeAfter_architecture (config list definitions : String) :
    (archTreeAfter config list definitions).locate? [] (archWorkspace "arch").architecturePath =
      .ok (["arch"].map Utf8.encode) := by
  cbv

/-- An ordinary workspace, in which all commands agree. -/
theorem archTree_agrees :
    (archRun (archConfig "arch")).result = .ok .success ∧
      (archCheck (archConfig "arch")).result = .ok .success := by
  have parsed : Config.parse (archConfig "arch") sampleConfigPath =
      .ok (archWorkspace "arch").config := by decide +kernel
  -- Apart from being the one that parses, the text of the configuration plays no part.
  generalize archConfig "arch" = config at *
  obtain ⟨found, located, held⟩ := archTree_found config
  have opened : (openAt ⟨archTree config, [], []⟩ none (Path.ofPlace [])).result =
      .ok (archWorkspace "arch") := openAt_sample found located held parsed
  have loaded : (SourceScan.load (archTree config) [] (Path.ofString "/") "arch").1 =
      .ok [⟨"arch/x86.rs", "pub fn sin() \x7b\x7d\n"⟩] := by cbv
  have extracts := archTree_extracts opened loaded
  generalize archRegistry "arch" [⟨"arch/x86.rs", "pub fn sin() \x7b\x7d\n"⟩] = registry at extracts
  obtain ⟨succeeded, tree⟩ := archTree_regenerated extracts
  have ran : updateApiList (.printing sampleText) [] [] none false false (archTree config) =
      (archRun config, archTree config) := by
    refine Prod.ext rfl ?_
    rw [extracts.updateApiList_eq, extractRegistry_state]
    rfl
  have same : SameDocumentation (.printing sampleText) (.printing sampleText) (archWorkspace "arch")
    (archTree config) (archRun config).tree := ⟨rfl, rfl, rfl⟩
  obtain ⟨listed, defined⟩ :=
    archTreeAfter_located "arch" config registry.functionList registry.render
  rw [← tree] at listed defined
  have apartConfig : ∀ path, resolveConfig ⟨archTree config, [], []⟩ none (Path.ofPlace []) =
        .ok (some path) → ∀ place, (archTree config).locate? [] path = .ok place →
      place ≠ ["etc", "function-list.txt"].map Utf8.encode ∧
        place ≠ ["etc", "function-definitions.json"].map Utf8.encode := by
    intro path resolved place there
    cases Option.some.inj (found.symm.trans (Except.ok.inj resolved))
    cases Except.ok.inj (located.symm.trans there)
    decide
  have apartSources : ∀ top,
      (archRun config).tree.locate? [] (archWorkspace "arch").architecturePath = .ok top →
      ¬ SourceScan.IsSourcePlace top (["etc", "function-list.txt"].map Utf8.encode) ∧
        ¬ SourceScan.IsSourcePlace top
          (["etc", "function-definitions.json"].map Utf8.encode) := by
    intro top there
    rw [tree, archTreeAfter_architecture] at there
    cases there
    exact ⟨SourceScan.not_isSourcePlace_of_outside (by decide +kernel),
      SourceScan.not_isSourcePlace_of_outside (by decide +kernel)⟩
  have search : SameSearch ⟨archTree config, [], []⟩ (archRun config).tree (Path.ofPlace []) := by
    rw [tree]
    obtain ⟨foundAfter, _⟩ := archTreeAfter_found config registry.functionList registry.render
    exact ⟨foundAfter.trans found.symm, fun none => by simp [found] at none⟩
  have architecture :
      (archTree config).isDirectory [] (archWorkspace "arch").architecturePath = true := by cbv
  obtain ⟨_, _, check, _⟩ := regenerated_files_agree opened ran succeeded rfl same listed defined
    (by decide) apartConfig apartSources (fun _ => search) (Or.inl architecture)
  refine ⟨succeeded, ?_⟩
  rw [archCheck, check]

/-- Where the sources are only found through a directory that the first run makes, there are
more of them for the comparison. -/
theorem archTree_disagrees :
    Disagrees (archRun (archConfig "etc/../arch")) (archCheck (archConfig "etc/../arch")) []
      (archWorkspace "etc/../arch") (["etc", "function-list.txt"].map Utf8.encode)
      (["etc", "function-definitions.json"].map Utf8.encode) := by
  have parsed : Config.parse (archConfig "etc/../arch") sampleConfigPath =
      .ok (archWorkspace "etc/../arch").config := by decide +kernel
  generalize archConfig "etc/../arch" = config at *
  have none : (SourceScan.load (archTree config) [] (Path.ofString "/") "etc/../arch").1 =
      .ok [] := by cbv
  obtain ⟨found, located, held⟩ := archTree_found config
  have extracts := archTree_extracts (openAt_sample found located held parsed) none
  obtain ⟨succeeded, tree⟩ := archTree_regenerated extracts
  have few : (archRegistry "etc/../arch" []).get? "sin" =
      some ⟨TextSet.ofList ["src/generic/sin.rs"], .f64⟩ := by decide +kernel
  generalize archRegistry "etc/../arch" [] = before at *
  obtain ⟨list, definitions⟩ :=
    archTreeAfter_located "etc/../arch" config before.functionList before.render
  refine ⟨succeeded, by rw [tree, list], by rw [tree, definitions], ?_⟩
  have some : (SourceScan.load (archTreeAfter config before.functionList before.render) []
      (Path.ofString "/") "etc/../arch").1 =
        .ok [⟨"etc/../arch/x86.rs", "pub fn sin() \x7b\x7d\n"⟩] := by
    generalize before.functionList = list
    generalize before.render = definitions
    cbv
  obtain ⟨found', located', held'⟩ := archTreeAfter_found config before.functionList before.render
  have reextracts := archTree_extracts (openAt_sample found' located' held' parsed) some
  obtain ⟨routine, more, listed⟩ : ∃ routine, (archRegistry "etc/../arch"
      [⟨"etc/../arch/x86.rs", "pub fn sin() \x7b\x7d\n"⟩]).get? "sin" = Option.some routine ∧
        "etc/../arch/x86.rs" ∈ routine.sources :=
    Extraction.mem_sources_of_defines (by decide +kernel)
      (Or.inr ⟨_, List.mem_singleton.2 rfl, rfl, by decide +kernel⟩)
  generalize archRegistry "etc/../arch" [⟨"etc/../arch/x86.rs", "pub fn sin() \x7b\x7d\n"⟩] = after
    at reextracts more
  rw [archCheck, tree]
  refine reextracts.check_stale (a := ⟨_, after.render⟩)
    (List.mem_cons_of_mem _ (List.mem_singleton.2 rfl)) ?_ false
  have read := Artifact.checkedIn_of_contents?
    (a := ⟨(archWorkspace "etc/../arch").definitionsPath, after.render⟩) definitions
    (archTreeAfter_contents config before.functionList before.render)
  rw [extractRegistry_state]
  intro fresh
  have same : before.render = after.render := Except.ok.inj (read.symm.trans fresh)
  have routines := @Registry.get?_eq_of_render_eq _ _ same "sin" (by decide)
  rw [few, more] at routines
  cases routines
  exact absurd listed (by decide +kernel)

def subPlace : Place := ["sub"].map Utf8.encode

/-- A configuration that keeps the function list below a directory that marks a repository. -/
def markConfig : String := "version = 1\n[api]\nfunction_list = \"sub/.git/list.txt\"\n"

def markWorkspace : Workspace :=
  ⟨Path.ofString "/", { api := { functionList := Path.ofString "sub/.git/list.txt" } }⟩

/-- The workspace of a search that ends before it comes to the configuration. -/
def subWorkspace : Workspace := ⟨Path.ofString "/sub", {}⟩

/-- A configuration, and a directory to start from. -/
def markTree (config : String) : FileTree := ⟨[
  (sampleConfigPlace, .file (Utf8.encode config) false), (subPlace, .directory)]⟩

/-- The same with the generated files. -/
def markTreeAfter (config list definitions : String) : FileTree :=
  ⟨(markTree config).entries ++ [
    (["sub", ".git"].map Utf8.encode, .directory),
    (["sub", ".git", "list.txt"].map Utf8.encode, .file (Utf8.encode list) false),
    (["etc"].map Utf8.encode, .directory),
    (["etc", "function-definitions.json"].map Utf8.encode, .file (Utf8.encode definitions) false)]⟩

theorem writeAll_mark (config list definitions : String) :
    Artifact.writeAll (markTree config) .none subPlace
        [⟨Path.ofString "/sub/.git/list.txt", list⟩,
          ⟨Path.ofString "/etc/function-definitions.json", definitions⟩] =
      (markTreeAfter config list definitions, .ok (),
        [.info "writing /sub/.git/list.txt", .info "writing /etc/function-definitions.json"]) := by
  cbv

theorem markTree_extracts {config : String}
    (parsed : Config.parse config sampleConfigPath = .ok markWorkspace.config) :
    Extracts (.printing "\x7b\x7d") [] subPlace none (markTree config) markWorkspace
      TextMap.empty where
  opened := openAt_sample (by cbv) (by cbv) (by cbv) parsed
  extracted := by cbv

/-- Once the function list is there the search ends in the directory that it starts from. -/
theorem markTreeAfter_extracts (config list definitions : String) :
    Extracts (.printing "\x7b\x7d") [] subPlace none (markTreeAfter config list definitions)
      subWorkspace TextMap.empty where
  opened := by cbv
  extracted := by cbv

theorem markWorkspace_paths :
    markWorkspace.functionListPath = Path.ofString "/sub/.git/list.txt" ∧
      markWorkspace.definitionsPath = Path.ofString "/etc/function-definitions.json" := by
  decide +kernel

theorem markTreeAfter_located (config list definitions : String) :
    (markTreeAfter config list definitions).locate? subPlace markWorkspace.functionListPath =
        .ok (["sub", ".git", "list.txt"].map Utf8.encode) ∧
      (markTreeAfter config list definitions).locate? subPlace markWorkspace.definitionsPath =
        .ok (["etc", "function-definitions.json"].map Utf8.encode) := by
  rw [markWorkspace_paths.1, markWorkspace_paths.2]
  exact ⟨by cbv, by cbv⟩

theorem markTreeAfter_unlisted (config list definitions contents : String) :
    Artifact.checkedIn (markTreeAfter config list definitions) subPlace
      ⟨subWorkspace.functionListPath, contents⟩ = .ok "" := by
  cbv

def markRun (config : String) : CommandRun :=
  (updateApiList (.printing "\x7b\x7d") [] subPlace none false false (markTree config)).1

def markCheck (config : String) : CommandRun :=
  (updateApiList (.printing "\x7b\x7d") [] subPlace none true false (markRun config).tree).1

theorem markTree_regenerated {config : String}
    (parsed : Config.parse config sampleConfigPath = .ok markWorkspace.config) :
    (markRun config).result = .ok .success ∧
      (markRun config).tree = markTreeAfter config (Registry.functionList TextMap.empty)
        (Registry.render TextMap.empty) := by
  have written := writeAll_mark config (Registry.functionList TextMap.empty)
    (Registry.render TextMap.empty)
  rw [← markWorkspace_paths.1, ← markWorkspace_paths.2] at written
  refine (markTree_extracts parsed).regenerated ?_ false
  rw [extractRegistry_state]
  exact ⟨_, written⟩

/-- Where the function list makes the mark of a repository, the search ends there before it
comes to the configuration. -/
theorem markTree_disagrees :
    Disagrees (markRun markConfig) (markCheck markConfig) subPlace markWorkspace
      (["sub", ".git", "list.txt"].map Utf8.encode)
      (["etc", "function-definitions.json"].map Utf8.encode) := by
  have parsed : Config.parse markConfig sampleConfigPath = .ok markWorkspace.config := by
    decide +kernel
  generalize markConfig = config at *
  obtain ⟨succeeded, tree⟩ := markTree_regenerated parsed
  obtain ⟨list, definitions⟩ := markTreeAfter_located config
    (Registry.functionList TextMap.empty) (Registry.render TextMap.empty)
  refine ⟨succeeded, by rw [tree, list], by rw [tree, definitions], ?_⟩
  have extracts := markTreeAfter_extracts config (Registry.functionList TextMap.empty)
    (Registry.render TextMap.empty)
  have unlisted := markTreeAfter_unlisted config (Registry.functionList TextMap.empty)
    (Registry.render TextMap.empty) (Registry.functionList TextMap.empty)
  rw [markCheck, tree]
  refine extracts.check_stale List.mem_cons_self ?_ false
  rw [extractRegistry_state]
  intro fresh
  have empty : "" = Registry.functionList TextMap.empty :=
    Except.ok.inj (unlisted.symm.trans fresh)
  exact absurd empty (by decide +kernel)

/-- Two workspaces in which files that were just written, two ordinary ones, are out of date:
in the first one writing them makes a way to sources, in the second one it ends the search
for the configuration early. -/
theorem regenerated_files_disagree :
    Disagrees (archRun (archConfig "etc/../arch")) (archCheck (archConfig "etc/../arch")) []
        (archWorkspace "etc/../arch") (["etc", "function-list.txt"].map Utf8.encode)
        (["etc", "function-definitions.json"].map Utf8.encode) ∧
      Disagrees (markRun markConfig) (markCheck markConfig) subPlace markWorkspace
        (["sub", ".git", "list.txt"].map Utf8.encode)
        (["etc", "function-definitions.json"].map Utf8.encode) :=
  ⟨archTree_disagrees, markTree_disagrees⟩

end Command

end RoutineWatch
