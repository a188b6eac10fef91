import RoutineWatch.Proofs.Git.Changes

/-!
# Refs that change nothing

Whether a ref is looked up is told by its letters alone, so the refs that can never fail are
those without the word `merge`. All others are taken for the ref of a pull request: a branch
or a tag that has the word in its name changes nothing only where it happens to name a merge
of two commits with equal trees, and fails where it names no merge of two commits.

- `PullRequest.changedFiles_eq_empty_iff`: when a ref changes nothing.
- `PullRequest.isOk_changedFiles_iff`: when a ref does not fail.
- `PullRequest.quiet_refs_exact`: for which refs this holds wherever they are looked up.
-/
namespace RoutineWatch.PullRequest

/-- The ref of the merge of a pull request: its number stands between two fixed texts. -/
def IsRequestRef (ref : String) : Prop :=
  ∃ number : List Char, number ≠ [] ∧ (∀ c ∈ number, c.isDigit = true) ∧
    ref.toList = "refs/pull/".toList ++ number ++ "/merge".toList

theorem isMergeRef_of_isRequestRef {ref : String} (request : IsRequestRef ref) :
    isMergeRef ref = true := by
  obtain ⟨number, _, _, spelled⟩ := request
  rw [isMergeRef_iff, spelled]
  exact ⟨"refs/pull/".toList ++ number ++ ['/'], [], by simp⟩

section
variable {t : FileTree} {repositories : List Repository} {here : Place} {root : Path}

/-- A ref that is looked up changes something or nothing only by what it compares. -/
theorem isOk_changedFiles_iff {ref : String} (isMerge : isMergeRef ref = true) :
    (∃ changes, (changedFiles t repositories here root (some ref)).1 = .ok changes) ↔
      ∃ old new, Compares t repositories here root ref old new := by
  constructor
  · rintro ⟨changes, success⟩
    obtain ⟨old, new, compares, _⟩ := compares_of_changedFiles isMerge success
    exact ⟨old, new, compares⟩
  · rintro ⟨old, new, compares⟩
    obtain ⟨changes, success, _⟩ := changedFiles_of_compares compares
    exact ⟨changes, success⟩

theorem changedFiles_eq_empty_iff {ref : String} (isMerge : isMergeRef ref = true) :
    (changedFiles t repositories here root (some ref)).1 = .ok TextSet.empty ↔
      ∃ old new, Compares t repositories here root ref old new ∧
        ∀ path, ¬ old.DiffersAt new path := by
  constructor
  · intro success
    obtain ⟨old, new, compares, differ⟩ := compares_of_changedFiles isMerge success
    refine ⟨old, new, compares, fun path differs => ?_⟩
    exact TextSet.not_mem_empty ((differ path).2 differs)
  · rintro ⟨old, new, compares, same⟩
    obtain ⟨changes, success, differ⟩ := changedFiles_of_compares compares
    have nothing : changes = TextSet.empty := by
      refine TextSet.ext fun path => ?_
      simp [differ, same]
    rw [success, nothing]

theorem ofDirectory?_nil (dir : Place) : Repository.ofDirectory? t [] dir = none := by
  have nowhere : ∀ place, Repository.at? [] place = none := fun _ => rfl
  unfold Repository.ofDirectory?
  simp only [nowhere, Option.map_none]
  cases t.follow true dir ⟨Repository.markName⟩ with
  | failed code => rfl
  | vacant place => rfl
  | found place =>
    dsimp only
    cases t.node? place with
    | none => rfl
    | some node =>
      cases node with
      | directory => rfl
      | link target => rfl
      | file contents executable =>
        dsimp only
        cases Repository.pointer? contents with
        | none => rfl
        | some path =>
          rw [Option.bind_eq_bind, Option.bind_some]
          cases t.follow true dir path <;> rfl

/-- Where there is no repository every ref that is looked up fails. -/
theorem changedFiles_of_no_repository {ref : String} (isMerge : isMergeRef ref = true) :
    (changedFiles t [] here root (some ref)).1 = .error unreadable := by
  have undiscovered : Repository.discover t [] here root = none := by
    unfold Repository.discover
    cases t.locate? here root with
    | error code => rfl
    | ok place => exact List.findSome?_eq_none_iff.2 fun dir _ => ofDirectory?_nil dir
  unfold changedFiles
  rw [Option.filter_some, if_pos isMerge, undiscovered]

end

/-- When a ref changes nothing, when it fails, and for which refs the first holds whatever
the files, the repositories and the root are: for those alone that do not have the word.
The refs of pull requests have it. -/
theorem quiet_refs_exact (ref : String) :
    (∀ (t : FileTree) (repositories : List Repository) (here : Place) (root : Path),
      ((changedFiles t repositories here root (some ref)).1 = .ok TextSet.empty ↔
        ¬ "merge".toList <:+: ref.toList ∨ ∃ old new,
          Compares t repositories here root ref old new ∧ ∀ path, ¬ old.DiffersAt new path) ∧
      ((∃ e, (changedFiles t repositories here root (some ref)).1 = .error e) ↔
        "merge".toList <:+: ref.toList ∧ ∀ old new,
          ¬ Compares t repositories here root ref old new)) ∧
    ((∀ (t : FileTree) (repositories : List Repository) (here : Place) (root : Path),
        (changedFiles t repositories here root (some ref)).1 = .ok TextSet.empty) ↔
      ¬ "merge".toList <:+: ref.toList) ∧
    (IsRequestRef ref → "merge".toList <:+: ref.toList) := by
  rw [← isMergeRef_iff]
  by_cases isMerge : isMergeRef ref = true
  · refine ⟨fun t repositories here root => ⟨?_, ?_⟩, ?_, fun _ => isMerge⟩
    · rw [changedFiles_eq_empty_iff isMerge]
      simp [isMerge]
    · have found := @isOk_changedFiles_iff t repositories here root ref isMerge
      cases result : (changedFiles t repositories here root (some ref)).1 with
      | error e =>
        rw [result] at found
        refine ⟨fun _ => ⟨isMerge, fun old new compares => ?_⟩, fun _ => ⟨e, rfl⟩⟩
        obtain ⟨changes, success⟩ := found.2 ⟨old, new, compares⟩
        cases success
      | ok changes =>
        rw [result] at found
        constructor
        · rintro ⟨e, failed⟩
          cases failed
        · rintro ⟨_, nothing⟩
          obtain ⟨old, new, compares⟩ := found.1 ⟨changes, rfl⟩
          exact absurd compares (nothing old new)
    · refine ⟨fun quiet => ?_, fun other => absurd isMerge other⟩
      have failed := @changedFiles_of_no_repository FileTree.empty [] ⟨[slash]⟩ ref isMerge
      rw [quiet] at failed
      cases failed
  · have quiet : ∀ (t : FileTree) (repositories : List Repository) (here : Place) (root : Path),
        (changedFiles t repositories here root (some ref)).1 = .ok TextSet.empty := by
      intro t repositories here root
      refine changedFiles_of_no_merge fun name same => ?_
      cases same
      exact Bool.eq_false_iff.2 isMerge
    refine ⟨fun t repositories here root => ⟨?_, ?_⟩, ?_, isMergeRef_of_isRequestRef⟩
    · simp [quiet, isMerge]
    · simp [quiet, isMerge]
    · simp [quiet, isMerge]

/-- A branch that is no pull request's, by its name, and fails outside of a repository. -/
theorem branch_with_the_word_fails :
    ¬ IsRequestRef "refs/heads/merge-fix" ∧
      (changedFiles FileTree.empty [] [] ⟨[slash]⟩ (some "refs/heads/merge-fix")).1 =
        .error unreadable := by
  refine ⟨?_, changedFiles_of_no_repository (by decide +kernel)⟩
  rintro ⟨number, _, _, spelled⟩
  have start := congrArg (List.take 6) spelled
  simp at start

end RoutineWatch.PullRequest
