import Mathlib
import RoutineWatch.Proofs.Git.Changes
import RoutineWatch.Proofs.Matrix.Resolve

/-!
# Changed files and the root of a workspace

The changed files of a pull request are written from the top of the repository, whatever
directory of the work tree is the root. Seen from a root below the top they are the files of
the root in one case only: when nothing differs.

- `PullRequest.changedFiles_from_top`: what is collected, and when it is what differs as seen
  from the root.

A root below the top is reached where a configuration stands in a directory of a work tree.
-/
namespace RoutineWatch

/-- The directory of a path is in the work tree that its repository is found by, and this
is where, seen from the top. -/
def StandsAt (t : FileTree) (repositories : List Repository) (here : Place) (root : Path)
    (position : Place) : Prop :=
  ∃ found top, Repository.discover t repositories here root = some found ∧
    found.workTree = some top ∧ t.locate? here root = .ok (top ++ position)

/-- A path below a place, as it is written from where the place is seen. -/
def pathBelow (position : Place) (path : String) : String :=
  String.intercalate "/" (position.map Utf8.lossy ++ [path])

theorem pathBelow_nil (path : String) : pathBelow [] path = path :=
  String.intercalate_singleton

theorem pathBelow_cons (name : Bytes) (position : Place) (path : String) :
    pathBelow (name :: position) path = Utf8.lossy name ++ "/" ++ pathBelow position path := by
  unfold pathBelow
  rw [List.map_cons, List.cons_append, String.intercalate_cons_of_ne_nil (by simp)]

theorem length_le_pathBelow (position : Place) (path : String) :
    path.length ≤ (pathBelow position path).length := by
  induction position with
  | nil => rw [pathBelow_nil]
  | cons name position ih =>
    rw [pathBelow_cons, String.length_append, String.length_append]
    omega

/-- A path gets longer the further up it is seen from. -/
theorem length_lt_pathBelow {position : Place} (below : position ≠ []) (path : String) :
    path.length < (pathBelow position path).length := by
  cases position with
  | nil => exact absurd rfl below
  | cons name position =>
    have longer := length_le_pathBelow position path
    have separator : "/".length = 1 := by decide
    rw [pathBelow_cons, String.length_append, String.length_append, separator]
    omega

/-- A finite set has no element if each leads to a longer one: not even a longest. -/
theorem TextSet.not_mem_of_longer {s : TextSet} {f : String → String}
    (closed : ∀ x ∈ s, f x ∈ s) (longer : ∀ x, x.length < (f x).length) (x : String) : x ∉ s := by
  intro member
  cases longest : s.toList.argmax String.length with
  | none =>
    rw [TextSet.mem_def, List.argmax_eq_none.1 longest] at member
    cases member
  | some last =>
    have bound := List.le_of_mem_argmax (closed last (List.argmax_mem longest)) longest
    have more := longer last
    omega

namespace PullRequest

/-- The changed files are the differing paths as they are written from the top, and sources
are compared with these. They are the paths from the root exactly if the root is the top
or nothing differs. -/
theorem changedFiles_from_top {t : FileTree} {repositories : List Repository} {here : Place}
    {root : Path} {ref : String} {old new : Commit}
    (compares : Compares t repositories here root ref old new) :
    ∃ changes, (changedFiles t repositories here root (some ref)).1 = .ok changes ∧
      (∀ path, path ∈ changes ↔ old.DiffersAt new path) ∧
      (∀ position, StandsAt t repositories here root position →
        ((∀ path, path ∈ changes ↔ old.DiffersAt new (pathBelow position path)) ↔
          position = [] ∨ ∀ path, ¬ old.DiffersAt new path)) ∧
      ∀ (registry : Registry) (ignore : IgnoreList) (name : String) (type : FloatType),
        name ∈ (TestMatrix.resolve registry ignore changes).changed type ↔
          ∃ routine, registry.get? name = some routine ∧ routine.type = type ∧
            ∃ source ∈ routine.sources, ignore.ignores source = false ∧
              old.DiffersAt new source := by
  obtain ⟨changes, success, differ⟩ := changedFiles_of_compares compares
  refine ⟨changes, success, differ, ?_, ?_⟩
  · intro position _
    constructor
    · intro fromRoot
      by_cases top : position = []
      · exact Or.inl top
      · -- Each differing path would lead to a longer one, the same path below the root.
        have closed : ∀ path ∈ changes, pathBelow position path ∈ changes := by
          intro path member
          exact (differ _).2 ((fromRoot path).1 member)
        refine Or.inr fun path differs => ?_
        exact TextSet.not_mem_of_longer closed (length_lt_pathBelow top) path
          ((differ path).2 differs)
    · rintro (rfl | same) path
      · rw [pathBelow_nil]
        exact differ path
      · exact ⟨fun member => absurd ((differ path).1 member) (same path),
          fun differs => absurd differs (same _)⟩
  · intro registry ignore name type
    simp only [TestMatrix.mem_changed, differ]

/-- A work tree with a directory in it. -/
def sampleTree : FileTree :=
  let place (names : List String) : Place := names.map Utf8.encode
  ⟨[(place ["work"], .directory), (place ["work", ".git"], .directory),
    (place ["work", "sub"], .directory)]⟩

/-- The tree of one file in a directory of a directory. -/
def nestedTree (contents : Bytes) : Tree :=
  .directory (Utf8.encode "sub")
    (.directory (Utf8.encode "src") (.leaf (Utf8.encode "sin.rs") ⟨.regular, contents⟩ .empty)
      .empty) .empty

/-- A commit with this tree. -/
def sampleCommit (id : String) (parents : List String) (contents : Bytes) : Commit :=
  ⟨id, parents, nestedTree contents, id, by cbv⟩

/-- A repository with a pull request that changes the file. -/
def sampleRepository : Repository :=
  ⟨["work", ".git"].map Utf8.encode, false,
    [sampleCommit "base" [] [1], sampleCommit "incoming" ["base"] [2],
      sampleCommit "joined" ["base", "incoming"] [2]],
    [("refs/pull/1/merge", .commit "joined")]⟩

/-- The file differs at its path from the top, and only there. -/
theorem sampleTree_from_top :
    ∃ changes, (changedFiles sampleTree [sampleRepository] [] (Path.ofString "/work/sub")
        (some "refs/pull/1/merge")).1 = .ok changes ∧
      ¬ ∀ path, path ∈ changes ↔ (sampleCommit "base" [] [1]).DiffersAt
        (sampleCommit "incoming" ["base"] [2]) (pathBelow [Utf8.encode "sub"] path) := by
  have discovered : Repository.discover sampleTree [sampleRepository] [] (Path.ofString "/work/sub")
      = some ⟨sampleRepository, some [Utf8.encode "work"]⟩ := by
    cbv
  have joins : sampleRepository.Joins (sampleCommit "joined" ["base", "incoming"] [2])
      (sampleCommit "base" [] [1]) (sampleCommit "incoming" ["base"] [2]) :=
    ⟨"base", "incoming", rfl, by decide +kernel, by decide +kernel⟩
  have compares : Compares sampleTree [sampleRepository] [] (Path.ofString "/work/sub")
      "refs/pull/1/merge" (sampleCommit "base" [] [1]) (sampleCommit "incoming" ["base"] [2]) :=
    ⟨by decide +kernel, _, _, discovered, by decide +kernel, joins⟩
  obtain ⟨changes, success, _, fromRoot, _⟩ := changedFiles_from_top compares
  refine ⟨changes, success, fun same => ?_⟩
  have stands : StandsAt sampleTree [sampleRepository] [] (Path.ofString "/work/sub")
      [Utf8.encode "sub"] :=
    ⟨_, _, discovered, rfl, by cbv⟩
  rcases (fromRoot _ stands).1 same with top | nothing
  · cases top
  · exact nothing "sub/src/sin.rs" ⟨["sub", "src", "sin.rs"].map Utf8.encode, by decide +kernel,
      by decide +kernel⟩

end PullRequest

end RoutineWatch
