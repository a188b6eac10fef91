import RoutineWatch.Proofs.FileTree.Paths
import RoutineWatch.Workspace

/-!
# Opening a workspace again

After files were written. A configuration that is named is found and read again; a search has
to end as before, which written files can prevent.

- `Workspace.Opens.again`: a workspace opens again as it was, if its configuration is not
  written and a search for it ends the same (`Workspace.SameSearch`).
-/
namespace RoutineWatch.Workspace
open FileTree

/-- A workspace opens without a configuration file, or with one that can be read. -/
inductive Opens (s : Surroundings) (asked : Option Path) (cwd : Path) : Workspace → Prop
  | bare (resolved : resolveConfig s asked cwd = .ok none) :
      Opens s asked cwd ⟨findRoot s none cwd, {}⟩
  | configured {path : Path} {config : Config}
      (resolved : resolveConfig s asked cwd = .ok (some path))
      (loaded : load s path = .ok config) :
      Opens s asked cwd ⟨findRoot s (some path) cwd, config⟩

theorem Opens.openAt_eq {s : Surroundings} {asked : Option Path} {cwd : Path} {w : Workspace}
    (opens : Opens s asked cwd w) : (openAt s asked cwd).result = .ok w := by
  cases opens with
  | bare resolved => simp only [openAt, configInForce, resolved]
  | configured resolved loaded => simp only [openAt, configInForce, resolved, loaded]

theorem opens_of_openAt {s : Surroundings} {asked : Option Path} {cwd : Path} {w : Workspace}
    (opened : (openAt s asked cwd).result = .ok w) : Opens s asked cwd w := by
  unfold openAt configInForce at opened
  cases resolved : resolveConfig s asked cwd with
  | error e => simp [resolved] at opened
  | ok path =>
    cases path with
    | none =>
      simp only [resolved, Except.ok.injEq] at opened
      subst opened
      exact .bare resolved
    | some path =>
      cases loaded : load s path with
      | error e => simp [resolved, loaded] at opened
      | ok config =>
        simp only [resolved, loaded, Except.ok.injEq] at opened
        subst opened
        exact .configured resolved loaded

/-- In another tree a search for the configuration ends as it does in the one at hand. -/
structure SameSearch (s : Surroundings) (t' : FileTree) (cwd : Path) : Prop where
  config : findConfig { s with tree := t' } cwd = findConfig s cwd
  root : findConfig s cwd = none →
    findRoot { s with tree := t' } none cwd = findRoot s none cwd

section
variable {s : Surroundings} {t' : FileTree} {asked : Option Path} {cwd : Path}
  {written : Place → Prop}

theorem resolveConfig_of_changes {path : Option Path} (changes : Changes written s.tree t')
    (search : asked = none → SameSearch s t' cwd)
    (resolved : resolveConfig s asked cwd = .ok path) :
    resolveConfig { s with tree := t' } asked cwd = .ok path := by
  unfold resolveConfig at resolved ⊢
  cases asked with
  | none =>
    rw [← resolved]
    exact congrArg Except.ok (search rfl).config
  | some path =>
    dsimp only at resolved ⊢
    split at resolved
    · next present => rw [if_pos (changes.keeps.pathExists present), resolved]
    · cases resolved

theorem load_of_changes {path : Path} {config : Config} (cwd : Path)
    (changes : Changes written s.tree t')
    (apart : ∀ place, s.tree.locate? s.here path = .ok place → ¬ written place)
    (loaded : load s path = .ok config) :
    load { s with tree := t' } path = .ok config ∧
      findRoot { s with tree := t' } (some path) cwd = findRoot s (some path) cwd := by
  unfold load at loaded
  split at loaded
  · cases loaded
  · next text read =>
    obtain ⟨dir, above⟩ := parent?_of_readText read
    unfold load findRoot
    dsimp only
    rw [changes.readText read apart, Option.bind_some, above]
    exact ⟨loaded, rfl⟩

/-- A workspace opens again as it was, if its configuration is not written and a search
for it ends the same. -/
theorem Opens.again {w : Workspace} (opens : Opens s asked cwd w)
    (changes : Changes written s.tree t')
    (apart : ∀ path, resolveConfig s asked cwd = .ok (some path) →
      ∀ place, s.tree.locate? s.here path = .ok place → ¬ written place)
    (search : asked = none → SameSearch s t' cwd) : Opens { s with tree := t' } asked cwd w := by
  cases opens with
  | bare resolved =>
    have found : asked = none ∧ findConfig s cwd = none := by
      unfold resolveConfig at resolved
      cases asked with
      | none => exact ⟨rfl, Except.ok.inj resolved⟩
      | some path =>
        dsimp only at resolved
        split at resolved <;> cases resolved
    rw [← (search found.1).root found.2]
    exact .bare (resolveConfig_of_changes changes search resolved)
  | configured resolved loaded =>
    obtain ⟨again, root⟩ := load_of_changes cwd changes (apart _ resolved) loaded
    rw [← root]
    exact .configured (resolveConfig_of_changes changes search resolved) again

end

end RoutineWatch.Workspace
