import RoutineWatch.Git.Changes
import RoutineWatch.Proofs.Git.Delta
import RoutineWatch.Proofs.Ordered.Map

/-!
# What is collected of a pull request

The deltas between the trees of the two joined commits are collected under their paths in
normal form, each as it is written from the top of the repository.

- `PullRequest.mem_collect`: what is collected of deltas, by induction over them.
- `PullRequest.mem_changes`: what is collected of two commits is where they differ.
- `PullRequest.changedFiles_of_compares`, `PullRequest.compares_of_changedFiles`: a ref of a
  pull request has changed files exactly if it leads to a merge of two known commits.
-/
namespace RoutineWatch
open RoutineWatch.Path (joinParts)

theorem ChangeSet.mem_ofPaths {paths : List Path} {path : String} :
    path ∈ ChangeSet.ofPaths paths ↔ ∃ p ∈ paths, p.posix = path := by
  have whole : ChangeSet.ofPaths paths = TextSet.ofList (paths.map Path.posix) := by
    unfold ChangeSet.ofPaths TextSet.ofList
    rw [List.foldl_map]
    rfl
  rw [whole, TextSet.mem_ofList, List.mem_map]

/-- The path that names on the way from the top spell. -/
def Path.ofWay (way : List Bytes) : Path := ⟨joinParts way⟩

namespace Commit

/-- A path at which the trees of two commits differ, in normal form. -/
def DiffersAt (old new : Commit) (path : String) : Prop :=
  ∃ way, old.tree.leaf? way ≠ new.tree.leaf? way ∧ (Path.ofWay way).posix = path

end Commit

/-- The commits that a merge of two joins, the target of the merge first. -/
def Repository.Joins (r : Repository) (merge old new : Commit) : Prop :=
  ∃ base incoming, merge.parents = [base, incoming] ∧
    r.commit? base = some old ∧ r.commit? incoming = some new

namespace PullRequest

theorem isMergeRef_iff {ref : String} :
    isMergeRef ref = true ↔ "merge".toList <:+: ref.toList :=
  occursIn_iff "merge".toList ref.toList

/-- Deltas are collected under their paths in normal form. -/
theorem mem_collect {deltas : List Delta} {changes : ChangeSet} {path : String} :
    path ∈ deltas.foldl collect changes ↔
      path ∈ changes ∨ ∃ d ∈ deltas, ∃ p, d.path? = some p ∧ p.posix = path := by
  induction deltas generalizing changes with
  | nil => simp
  | cons d deltas ih =>
    rw [List.foldl_cons, ih, collect]
    cases named : d.path? with
    | none => simp [named]
    | some p => simp [named, ChangeSet.insertPath, TextSet.mem_insert, eq_comm, or_assoc, or_comm]

/-- The deltas of two commits are collected under the paths at which they differ. -/
theorem mem_changes {old new : Commit} {path : String} :
    path ∈ (old.tree.deltas new.tree).foldl collect TextSet.empty ↔ old.DiffersAt new path := by
  rw [mem_collect]
  constructor
  · rintro (none | ⟨d, member, p, named, posix⟩)
    · exact absurd none TextSet.not_mem_empty
    · obtain ⟨way, differ, rfl⟩ :=
        (Tree.exists_delta_iff old.wellFormed new.wellFormed).1 ⟨d, member, named⟩
      exact ⟨way, differ, posix⟩
  · rintro ⟨way, differ, posix⟩
    obtain ⟨d, member, named⟩ :=
      (Tree.exists_delta_iff old.wellFormed new.wellFormed).2 ⟨way, differ, rfl⟩
    exact Or.inr ⟨d, member, _, named, posix⟩

theorem changedBetween_ok {r : Repository} {base incoming : String} {old new : Commit}
    (target : r.commit? base = some old) (head : r.commit? incoming = some new) :
    ∃ changes, (changedBetween r base incoming).1 = .ok changes ∧
      ∀ path, path ∈ changes ↔ old.DiffersAt new path := by
  unfold changedBetween
  rw [target, head]
  exact ⟨_, rfl, fun _ => mem_changes⟩

theorem changedByMerge_of_joins {r : Repository} {merge old new : Commit}
    (joins : r.Joins merge old new) :
    ∃ changes, (changedByMerge r merge).1 = .ok changes ∧
      ∀ path, path ∈ changes ↔ old.DiffersAt new path := by
  obtain ⟨base, incoming, parents, target, head⟩ := joins
  unfold changedByMerge
  rw [parents]
  exact changedBetween_ok target head

/-- Only a merge of two known commits yields changes. -/
theorem joins_of_changedByMerge {r : Repository} {merge : Commit} {changes : ChangeSet}
    (success : (changedByMerge r merge).1 = .ok changes) :
    ∃ old new, r.Joins merge old new := by
  unfold changedByMerge at success
  split at success
  · next base incoming parents =>
    unfold changedBetween at success
    cases target : r.commit? base with
    | none => simp [target] at success
    | some old =>
      cases head : r.commit? incoming with
      | none => simp [target, head] at success
      | some new => exact ⟨old, new, base, incoming, parents, target, head⟩
  · cases success

section
variable (t : FileTree) (repositories : List Repository) (here : Place) (root : Path)

/-- A ref of a pull request of the repository that a directory is in, and the two commits
that its merge joins. -/
def Compares (ref : String) (old new : Commit) : Prop :=
  isMergeRef ref = true ∧ ∃ found merge,
    Repository.discover t repositories here root = some found ∧
      found.repository.revision? ref = some merge ∧ found.repository.Joins merge old new

variable {t repositories here root}

theorem changedFiles_of_compares {ref : String} {old new : Commit}
    (compares : Compares t repositories here root ref old new) :
    ∃ changes, (changedFiles t repositories here root (some ref)).1 = .ok changes ∧
      ∀ path, path ∈ changes ↔ old.DiffersAt new path := by
  obtain ⟨isMerge, found, merge, discovered, named, joins⟩ := compares
  unfold changedFiles
  rw [Option.filter_some, if_pos isMerge, discovered]
  dsimp only
  rw [named]
  exact changedByMerge_of_joins joins

/-- Without the ref of a pull request nothing changes, with or without a repository. -/
theorem changedFiles_of_no_merge {ref : Option String}
    (other : ∀ name, ref = some name → isMergeRef name = false) :
    (changedFiles t repositories here root ref).1 = .ok TextSet.empty := by
  unfold changedFiles
  cases ref with
  | none => rfl
  | some name =>
    rw [Option.filter_some, if_neg (by simp [other name rfl])]

/-- Changes of the ref of a pull request come from the commits that it compares. -/
theorem compares_of_changedFiles {ref : String} {changes : ChangeSet}
    (isMerge : isMergeRef ref = true)
    (success : (changedFiles t repositories here root (some ref)).1 = .ok changes) :
    ∃ old new, Compares t repositories here root ref old new ∧
      ∀ path, path ∈ changes ↔ old.DiffersAt new path := by
  have kept := success
  unfold changedFiles at success
  rw [Option.filter_some, if_pos isMerge] at success
  cases discovered : Repository.discover t repositories here root with
  | none => simp [discovered] at success
  | some found =>
    cases named : found.repository.revision? ref with
    | none => simp [discovered, named] at success
    | some merge =>
      rw [discovered] at success
      dsimp only at success
      rw [named] at success
      obtain ⟨old, new, joins⟩ := joins_of_changedByMerge success
      have compares : Compares t repositories here root ref old new :=
        ⟨isMerge, found, merge, discovered, named, joins⟩
      obtain ⟨same, again, differ⟩ := changedFiles_of_compares compares
      rw [kept] at again
      cases again
      exact ⟨old, new, compares, differ⟩

end

end PullRequest

end RoutineWatch
