import Mathlib
import RoutineWatch.Command.ApiList

/-!
# Runs of the command for the generated files

A run is told by what it has found when it comes to the files: a workspace and the registry
extracted for it.

- `Command.Extracts`: what it has found.
- `Command.updateApiList_cases`: a run fails before it comes to the files, or has found it.
- `Command.Extracts.updateApiList_eq`: what the run does then.
-/
namespace RoutineWatch

/-- Tools that print a text, leave the files alone and never fail. -/
def ToolRunner.printing (text : String) : ToolRunner FileTree where
  output := fun _ _ _ t => ⟨.ok text, [], t⟩
  status := fun _ _ _ t => ⟨.ok (), [], t⟩
  files := id

namespace Workspace

abbrev functionListPath (w : Workspace) : Path := w.root.join w.config.api.functionList

abbrev definitionsPath (w : Workspace) : Path := w.root.join w.config.matrix.definitions

/-- The directory of the architectures' sources. -/
abbrev architecturePath (w : Workspace) : Path := w.root.join (Path.ofString w.config.api.archDir)

end Workspace

namespace Command

/-- Of the tools only the one for the documentation runs. -/
theorem extractRegistry_state {σ : Type} (runner : ToolRunner σ) (here : Place) (w : Workspace)
    (state : σ) :
    (extractRegistry runner here w state).state =
      (runner.output DocIndex.builder w.config.api.docArguments w.root state).state := by
  unfold extractRegistry
  dsimp only
  split
  · rfl
  · split <;> rfl

/-- Tools that only print leave the tree as it was. -/
theorem printing_tree (text : String) (here : Place) (w : Workspace) (t : FileTree) :
    (ToolRunner.printing text).files (extractRegistry (.printing text) here w t).state = t := by
  rw [extractRegistry_state]
  rfl

/-- A registry is extracted from a text of the documentation tool that parses and from the
sources that the tool leaves. -/
theorem extractRegistry_eq_ok_iff {σ : Type} {runner : ToolRunner σ} {here : Place} {w : Workspace}
    {state : σ} {registry : Registry} :
    (extractRegistry runner here w state).result = .ok registry ↔
      ∃ text index files,
        (runner.output DocIndex.builder w.config.api.docArguments w.root state).result = .ok text ∧
        DocIndex.parse text = .ok index ∧
        (SourceScan.load (runner.files (extractRegistry runner here w state).state) here w.root
          w.config.api.archDir).1 = .ok files ∧
        registry = Extraction.extract w.config.api.rule index files := by
  rw [extractRegistry_state]
  unfold extractRegistry DocIndex.build
  dsimp only
  cases (runner.output DocIndex.builder w.config.api.docArguments w.root state).result with
  | error e => simp [bind, Except.bind]
  | ok text =>
    cases parsed : DocIndex.parse text with
    | error mismatch => simp [bind, Except.bind, Except.mapError, parsed]
    | ok index =>
      dsimp only [bind, Except.bind, Except.mapError]
      rw [parsed]
      dsimp only
      cases loaded : (SourceScan.load (runner.files (runner.output DocIndex.builder
          w.config.api.docArguments w.root state).state) here w.root w.config.api.archDir).1 with
      | error e => simp
      | ok files => simp [parsed, eq_comm]

section
variable {σ : Type} (runner : ToolRunner σ) (repositories : List Repository) (here : Place)
  (asked : Option Path)

/-- From a state a workspace opens, and a registry is extracted for it. -/
structure Extracts (state : σ) (w : Workspace) (registry : Registry) : Prop where
  opened : (Workspace.openAt ⟨runner.files state, repositories, here⟩ asked
    (Path.ofPlace here)).result = .ok w
  extracted : (extractRegistry runner here w state).result = .ok registry

variable {runner repositories here asked} {state : σ} {w : Workspace} {registry : Registry}

/-- What a run notices before it comes to the files. -/
abbrev noticesBefore {σ : Type} (runner : ToolRunner σ) (repositories : List Repository)
    (here : Place) (asked : Option Path) (state : σ) (w : Workspace) : List Notice :=
  (Workspace.openAt ⟨runner.files state, repositories, here⟩ asked (Path.ofPlace here)).notices ++
    (extractRegistry runner here w state).notices

/-- What a run does that has extracted a registry. -/
theorem Extracts.updateApiList_eq
    (extracts : Extracts runner repositories here asked state w registry) (check colored : Bool) :
    updateApiList runner repositories here asked check colored state =
      (if check then
          checkArtifacts (runner.files (extractRegistry runner here w state).state) here colored
            (Artifact.ofRegistry w registry) (noticesBefore runner repositories here asked state w)
        else
          writeArtifacts (runner.files (extractRegistry runner here w state).state)
            (runner.faults (extractRegistry runner here w state).state) here
            (Artifact.ofRegistry w registry) (noticesBefore runner repositories here asked state w),
        (extractRegistry runner here w state).state) := by
  unfold updateApiList
  dsimp only
  rw [extracts.opened]
  dsimp only
  rw [extracts.extracted]

end

/-- A run fails before it comes to the files, or it has extracted a registry. -/
theorem updateApiList_cases {σ : Type} (runner : ToolRunner σ) (repositories : List Repository)
    (here : Place) (asked : Option Path) (check colored : Bool) (state : σ) :
    (∃ e notices after, updateApiList runner repositories here asked check colored state =
        (.failure e notices (runner.files after), after)) ∨
      ∃ w registry, Extracts runner repositories here asked state w registry := by
  unfold updateApiList
  dsimp only
  split
  · exact Or.inl ⟨_, _, _, rfl⟩
  · next w opened =>
    split
    · exact Or.inl ⟨_, _, _, rfl⟩
    · next registry extracted => exact Or.inr ⟨w, registry, opened, extracted⟩

end Command

end RoutineWatch
