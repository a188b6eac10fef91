import Mathlib
import RoutineWatch.Proofs.FileTree.Paths
import RoutineWatch.Proofs.Path.Ancestors
import RoutineWatch.Workspace

/-!
# Finding the workspace

The search goes up from a directory to the nearest one that holds a configuration or a
repository, and takes the configuration if there is one beside it. So what stands above an
enclosing repository is never used, and wherever below such a directory one starts, the same
workspace is opened.

- `Workspace.Nearest`: the nearest directory that is marked.
- `Workspace.discovery_exact`: where the search ends, and what is opened.
-/
namespace RoutineWatch

/-- Where an absolute path leads does not depend on the working directory. -/
theorem FileTree.locate?_of_absolute {t : FileTree} {p : Path} (absolute : p.isAbsolute = true)
    (here here' : Place) : t.locate? here p = t.locate? here' p := by
  unfold locate? follow
  rw [if_pos absolute, if_pos absolute]

namespace Workspace

/-- The path of the configuration in a directory. -/
def configIn (dir : Path) : Path := dir.join (Path.ofString Config.fileName)

section
variable (s : Surroundings)

/-- A directory has a configuration: under its name stands anything, links followed. -/
abbrev HasConfig (dir : Path) : Prop := s.tree.pathExists s.here (configIn dir) = true

/-- A directory holds a repository: under its mark stands anything, links followed. -/
abbrev HasRepository (dir : Path) : Prop :=
  s.tree.pathExists s.here (dir.join repositoryMark) = true

/-- The nearest of a path and those above it that has a configuration or holds a repository: all
others are above it. -/
structure Nearest (cwd d : Path) : Prop where
  above : d ∈ cwd.ancestors
  marked : HasConfig s d ∨ HasRepository s d
  nearest : ∀ a ∈ cwd.ancestors, HasConfig s a ∨ HasRepository s a → a.parts <+: d.parts

end

section
variable {s : Surroundings} {cwd d : Path}

theorem verdict_of_marked (marked : HasConfig s d ∨ HasRepository s d) :
    verdict s d = some (if HasConfig s d then some (configIn d) else none) := by
  unfold verdict
  by_cases config : HasConfig s d
  · rw [if_pos config]
    exact if_pos config
  · rw [if_neg config]
    exact (if_neg config).trans (if_pos (marked.resolve_left config))

theorem verdict_of_unmarked (unmarked : ¬ (HasConfig s d ∨ HasRepository s d)) :
    verdict s d = none := by
  rw [not_or] at unmarked
  exact (if_neg unmarked.1).trans (if_neg unmarked.2)

/-- The search ends at the nearest directory that is marked. -/
theorem Nearest.findConfig (nearest : Nearest s cwd d) (absolute : cwd.isAbsolute = true) :
    findConfig s cwd = if HasConfig s d then some (configIn d) else none := by
  obtain ⟨before, after, split⟩ := List.append_of_mem nearest.above
  have order := Path.ancestors_descend absolute
  rw [split, List.pairwise_append] at order
  have passed : ∀ a ∈ before, verdict s a = none := by
    intro a ahead
    apply verdict_of_unmarked
    intro marked
    obtain ⟨front, other⟩ := order.2.2 a ahead d List.mem_cons_self
    have above : a ∈ cwd.ancestors := by
      rw [split]
      exact List.mem_append_left _ ahead
    have back := nearest.nearest a above marked
    exact other (front.eq_of_length (Nat.le_antisymm front.length_le back.length_le))
  unfold Workspace.findConfig
  rw [List.findSome?_eq_some_iff.2 ⟨before, d, after, split, verdict_of_marked nearest.marked,
    passed⟩]
  rfl

/-- The first directory on the way up that is marked is the nearest. -/
theorem nearest_of_split (absolute : cwd.isAbsolute = true) {before after : List Path}
    (split : cwd.ancestors = before ++ d :: after)
    (passed : ∀ a ∈ before, ¬ (HasConfig s a ∨ HasRepository s a))
    (marked : HasConfig s d ∨ HasRepository s d) : Nearest s cwd d := by
  have order := Path.ancestors_descend absolute
  rw [split, List.pairwise_append] at order
  refine ⟨?_, marked, ?_⟩
  · rw [split]
    exact List.mem_append_right _ List.mem_cons_self
  · intro a above own
    rw [split] at above
    rcases List.mem_append.1 above with ahead | later
    · exact absurd own (passed a ahead)
    · rcases List.mem_cons.1 later with same | higher
      · rw [same]
      · exact ((List.pairwise_cons.1 order.2.1).1 a higher).1

/-- Some directory is the nearest one that is marked, unless none is. -/
theorem exists_nearest (absolute : cwd.isAbsolute = true) :
    (∃ d, Nearest s cwd d) ∨ ∀ a ∈ cwd.ancestors, ¬ (HasConfig s a ∨ HasRepository s a) := by
  cases found : cwd.ancestors.find? fun a => decide (HasConfig s a ∨ HasRepository s a) with
  | none =>
    right
    intro a above
    simpa using List.find?_eq_none.1 found a above
  | some d =>
    left
    obtain ⟨marked, before, after, split, passed⟩ := List.find?_eq_some_iff_append.1 found
    refine ⟨d, nearest_of_split absolute split ?_ (of_decide_eq_true marked)⟩
    intro a ahead
    simpa using passed a ahead

theorem findConfig_of_unmarked
    (unmarked : ∀ a ∈ cwd.ancestors, ¬ (HasConfig s a ∨ HasRepository s a)) :
    findConfig s cwd = none := by
  unfold findConfig
  rw [List.findSome?_eq_none_iff.2 fun a above => verdict_of_unmarked (unmarked a above)]
  rfl

/-- No configuration above a directory that holds a repository is used. -/
theorem below_repository (absolute : cwd.isAbsolute = true) {g p : Path}
    (above : g ∈ cwd.ancestors) (repository : HasRepository s g)
    (found : findConfig s cwd = some p) :
    ∃ d ∈ cwd.ancestors, p = configIn d ∧ g.parts <+: d.parts := by
  rcases @exists_nearest s cwd absolute with ⟨d, nearest⟩ | unmarked
  · rw [nearest.findConfig absolute] at found
    split at found
    · cases found
      exact ⟨d, nearest.above, rfl, nearest.nearest g above (Or.inr repository)⟩
    · cases found
  · rw [findConfig_of_unmarked unmarked] at found
    cases found

/-! Opening -/

/-- The configuration in an absolute directory stands there: up from it is the directory. -/
theorem exists_parent_configIn (absolute : d.isAbsolute = true) :
    ∃ root, (configIn d).parent? = some root ∧ root.isAbsolute = true ∧ root.parts = d.parts := by
  have relative : (Path.ofString Config.fileName).isAbsolute = false := by decide +kernel
  have own : (Path.ofString Config.fileName).parts = [Utf8.encode Config.fileName] := by
    decide +kernel
  have below : (configIn d).parts = d.parts ++ [Utf8.encode Config.fileName] := by
    rw [configIn, Path.parts_join relative, own]
  have absolute' : (configIn d).isAbsolute = true := (Path.isAbsolute_join relative).trans absolute
  rcases Path.parent?_cases absolute' with ⟨_, empty⟩ | ⟨root, name, above, rooted, whole⟩
  · rw [below] at empty
    exact absurd empty (by simp)
  · rw [below] at whole
    exact ⟨root, above, rooted, (List.append_inj' whole rfl).1.symm⟩

theorem findRoot_configIn {root : Path} (above : (configIn d).parent? = some root)
    (rooted : root.isAbsolute = true) : findRoot s (some (configIn d)) cwd = root := by
  unfold findRoot
  rw [Option.bind_some, above]
  refine if_neg ?_
  intro empty
  simp [Path.isAbsolute, empty] at rooted

theorem load_moved {p : Path} (absolute : p.isAbsolute = true) (here' : Place) :
    load { s with here := here' } p = load s p := by
  unfold load FileTree.readText FileTree.readBytes
  rw [FileTree.locate?_of_absolute absolute here' s.here]

/-- What is opened by a search that ends at a configuration: nothing of where it started is
left. -/
theorem Nearest.openAt_eq (nearest : Nearest s cwd d) (absolute : cwd.isAbsolute = true)
    (config : HasConfig s d) {root : Path} (above : (configIn d).parent? = some root)
    (rooted : root.isAbsolute = true) :
    openAt s none cwd =
      match load s (configIn d) with
      | .error e => ⟨.error e, [.debug ("loading config from " ++ (configIn d).display)]⟩
      | .ok c => ⟨.ok ⟨root, c⟩,
          .debug ("loading config from " ++ (configIn d).display) ::
            (c.warnings (configIn d)).map .line ++ [.debug ("repository root: " ++ root.display)]⟩ := by
  have found : Workspace.findConfig s cwd = some (configIn d) := by
    rw [nearest.findConfig absolute, if_pos config]
  unfold openAt configInForce resolveConfig
  simp only [found]
  cases load s (configIn d) with
  | error e => rfl
  | ok c => simp only [findRoot_configIn above rooted]

theorem hasConfig_moved (absolute : d.isAbsolute = true) (here' : Place) :
    HasConfig { s with here := here' } d ↔ HasConfig s d := by
  have relative : (Path.ofString Config.fileName).isAbsolute = false := by decide +kernel
  have absolute' : (configIn d).isAbsolute = true := (Path.isAbsolute_join relative).trans absolute
  unfold HasConfig FileTree.pathExists FileTree.lookup?
  rw [FileTree.locate?_of_absolute absolute' here' s.here]

/-- From two places below a configuration that is the nearest for both, the same is opened. -/
theorem openAt_alike {here' : Place} {cwd' : Path} (absolute : cwd.isAbsolute = true)
    (absolute' : cwd'.isAbsolute = true) (nearest : Nearest s cwd d)
    (nearest' : Nearest { s with here := here' } cwd' d) (config : HasConfig s d) :
    openAt s none cwd = openAt { s with here := here' } none cwd' ∧
      ∃ root, root.isAbsolute = true ∧ root.parts = d.parts ∧
        (openAt s none cwd).result = (load s (configIn d)).map fun c => ⟨root, c⟩ := by
  have rooted := (Path.ancestors_of_absolute absolute).2 d nearest.above
  have relative : (Path.ofString Config.fileName).isAbsolute = false := by decide +kernel
  have reached : (configIn d).isAbsolute = true := (Path.isAbsolute_join relative).trans rooted
  obtain ⟨root, above, rooted', parts⟩ := exists_parent_configIn rooted
  have here := nearest.openAt_eq absolute config above rooted'
  have there := nearest'.openAt_eq absolute' ((hasConfig_moved rooted here').2 config) above rooted'
  rw [load_moved reached] at there
  refine ⟨here.trans there.symm, root, rooted', parts, ?_⟩
  rw [here]
  cases load s (configIn d) <;> rfl

/-- The search for the configuration from an absolute directory. It tries the directories above,
one for each front of the path's parts, and ends at the nearest that has a configuration or holds
a repository: there it takes the configuration, if there is one, and so never one from above a
repository. What is opened depends on that directory only. -/
theorem discovery_exact (s : Surroundings) {cwd : Path} (absolute : cwd.isAbsolute = true) :
    (cwd.ancestors.map Path.parts = cwd.parts.inits.reverse ∧
      ∀ a ∈ cwd.ancestors, a.isAbsolute = true) ∧
    ((∃ d, Nearest s cwd d) ∨ ∀ a ∈ cwd.ancestors, ¬ (HasConfig s a ∨ HasRepository s a)) ∧
    (∀ d, Nearest s cwd d →
      findConfig s cwd = if HasConfig s d then some (configIn d) else none) ∧
    ((∀ d, ¬ Nearest s cwd d) → findConfig s cwd = none) ∧
    (∀ g ∈ cwd.ancestors, HasRepository s g → ∀ p, findConfig s cwd = some p →
      ∃ d ∈ cwd.ancestors, p = configIn d ∧ g.parts <+: d.parts) ∧
    ∀ here' cwd' d, cwd'.isAbsolute = true → Nearest s cwd d →
      Nearest { s with here := here' } cwd' d → HasConfig s d →
      openAt s none cwd = openAt { s with here := here' } none cwd' ∧
        ∃ root, root.isAbsolute = true ∧ root.parts = d.parts ∧
          (openAt s none cwd).result = (load s (configIn d)).map fun c => ⟨root, c⟩ := by
  refine ⟨Path.ancestors_of_absolute absolute, exists_nearest absolute,
    fun d nearest => nearest.findConfig absolute, ?_, ?_, ?_⟩
  · intro none
    rcases @exists_nearest s cwd absolute with ⟨d, nearest⟩ | unmarked
    · exact absurd nearest (none d)
    · exact findConfig_of_unmarked unmarked
  · intro g above repository p found
    exact below_repository absolute above repository found
  · intro here' cwd' d absolute' nearest nearest' config
    exact openAt_alike absolute absolute' nearest nearest' config

end

/-- A repository with a configuration that is a link, and another configuration above it. -/
def nestedTree : FileTree :=
  let place (names : List String) : Place := names.map Utf8.encode
  ⟨[(place ["libm-ci.toml"], .file (Utf8.encode "version = 2\n") false),
    (place ["r"], .directory), (place ["r", ".git"], .directory),
    (place ["r", "conf"], .file (Utf8.encode "version = 1\n") false),
    (place ["r", "libm-ci.toml"], .link (Path.ofString "conf")),
    (place ["r", "a"], .directory), (place ["r", "a", "b"], .directory)]⟩

/-- Standing in a directory below the repository. -/
def nestedFrom (names : List String) : Surroundings := ⟨nestedTree, [], names.map Utf8.encode⟩

theorem nestedTree_opens_alike :
    (Path.ofString "/r/a/b").isAbsolute = true ∧ (Path.ofString "/r").isAbsolute = true ∧
      Nearest (nestedFrom ["r", "a", "b"]) (Path.ofString "/r/a/b") (Path.ofString "/r") ∧
      Nearest (nestedFrom ["r"]) (Path.ofString "/r") (Path.ofString "/r") ∧
      findConfig (nestedFrom ["r", "a", "b"]) (Path.ofString "/r/a/b") =
        some (Path.ofString "/r/libm-ci.toml") ∧
      openAt (nestedFrom ["r", "a", "b"]) none (Path.ofString "/r/a/b") =
        openAt (nestedFrom ["r"]) none (Path.ofString "/r") := by
  have absolute : (Path.ofString "/r/a/b").isAbsolute = true := by decide +kernel
  have absolute' : (Path.ofString "/r").isAbsolute = true := by decide +kernel
  have config : HasConfig (nestedFrom ["r", "a", "b"]) (Path.ofString "/r") := by cbv
  have config' : HasConfig (nestedFrom ["r"]) (Path.ofString "/r") := by cbv
  have up : (Path.ofString "/r/a/b").ancestors =
      ["/r/a/b", "/r/a"].map Path.ofString ++ Path.ofString "/r" :: [Path.ofString "/"] := by
    decide +kernel
  have up' : (Path.ofString "/r").ancestors = [] ++ Path.ofString "/r" :: [Path.ofString "/"] := by
    decide +kernel
  have silent : (["/r/a/b", "/r/a"].map Path.ofString).all (fun a =>
      (verdict (nestedFrom ["r", "a", "b"]) a).isNone) = true := by
    cbv
  have passed : ∀ a ∈ ["/r/a/b", "/r/a"].map Path.ofString,
      ¬ (HasConfig (nestedFrom ["r", "a", "b"]) a ∨
        HasRepository (nestedFrom ["r", "a", "b"]) a) := by
    intro a ahead marked
    have none := List.all_eq_true.1 silent a ahead
    rw [verdict_of_marked marked] at none
    cases none
  have nearest := nearest_of_split absolute up passed (Or.inl config)
  have nearest' := nearest_of_split absolute' up' (by simp) (Or.inl config')
  obtain ⟨_, _, found, _, _, alike⟩ := discovery_exact (nestedFrom ["r", "a", "b"]) absolute
  have taken := found _ nearest
  rw [if_pos config] at taken
  have path : configIn (Path.ofString "/r") = Path.ofString "/r/libm-ci.toml" := by
    decide +kernel
  rw [path] at taken
  exact ⟨absolute, absolute', nearest, nearest', taken,
    (alike _ _ _ absolute' nearest nearest' config).1⟩

end Workspace

end RoutineWatch
