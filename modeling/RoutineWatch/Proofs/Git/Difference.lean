import RoutineWatch.Proofs.Git.Changes

/-!
# The difference of two commits

What differs between two commits is a matter of their trees' leaves alone, whichever way the
trees are walked.

- `Commit.LeafDiffers`: one commit has a leaf where the other has none, or another kind or
  other contents there. It looks the leaf up name by name.
- `PullRequest.changedBetween_exact`: the difference of two commits is the set of the paths, in
  normal form, of the leaves that differ. The two paths of a file that is moved are in it, a
  file that gives way to a directory together with all that is in the directory, and a leaf
  that changes in kind only; nothing of a tree that stays the same is in it, and the order of
  the commits does not count.

Two names that are not UTF-8 can have one text as their normal form, so what is told of a text
is that some row of names is written so.
-/
namespace RoutineWatch

namespace Tree

theorem leaf?_of_subtree {t inside : Tree} {way : List Bytes}
    (leads : t.subtree? way = some inside) : t.leaf? way = none := by
  have below := leaf?_append leads []
  rw [List.append_nil] at below
  rw [below, leaf?]

end Tree

namespace Commit

/-- Two commits do not have the same leaf under some names: only one of them has a leaf
there, or the leaves are of two kinds or have different contents. -/
inductive LeafDiffers (old new : Commit) (way : List Bytes) : Prop
  | deleted (leaf : Leaf) (before : old.tree.leaf? way = some leaf)
      (after : new.tree.leaf? way = none)
  | added (leaf : Leaf) (before : old.tree.leaf? way = none)
      (after : new.tree.leaf? way = some leaf)
  | modified (leaf leaf' : Leaf) (before : old.tree.leaf? way = some leaf)
      (after : new.tree.leaf? way = some leaf')
      (differ : leaf.kind ≠ leaf'.kind ∨ leaf.contents ≠ leaf'.contents)

theorem leaf_ne_iff {leaf leaf' : Leaf} :
    leaf ≠ leaf' ↔ leaf.kind ≠ leaf'.kind ∨ leaf.contents ≠ leaf'.contents := by
  rw [← not_and_or, not_iff_not]
  constructor
  · rintro rfl
    exact ⟨rfl, rfl⟩
  · cases leaf
    cases leaf'
    rintro ⟨rfl, rfl⟩
    rfl

theorem leaf?_ne_iff {old new : Commit} {way : List Bytes} :
    old.tree.leaf? way ≠ new.tree.leaf? way ↔ old.LeafDiffers new way := by
  constructor
  · intro differ
    cases before : old.tree.leaf? way with
    | none =>
      cases after : new.tree.leaf? way with
      | none => exact absurd (before.trans after.symm) differ
      | some leaf => exact .added leaf before after
    | some leaf =>
      cases after : new.tree.leaf? way with
      | none => exact .deleted leaf before after
      | some leaf' =>
        rw [before, after] at differ
        exact .modified leaf leaf' before after (leaf_ne_iff.1 fun same => differ (same ▸ rfl))
  · rintro (⟨leaf, before, after⟩ | ⟨leaf, before, after⟩ | ⟨leaf, leaf', before, after, differ⟩)
    · simp [before, after]
    · simp [before, after]
    · rw [before, after]
      exact fun same => leaf_ne_iff.2 differ (Option.some.inj same)

theorem differsAt_iff {old new : Commit} {path : String} :
    old.DiffersAt new path ↔
      ∃ way, old.LeafDiffers new way ∧ (Path.ofWay way).posix = path := by
  simp only [DiffersAt, leaf?_ne_iff]

theorem differsAt_comm {old new : Commit} {path : String} :
    old.DiffersAt new path ↔ new.DiffersAt old path := by
  simp only [DiffersAt, ne_comm]

/-- A file is moved: the leaf in one place is found in another, and in each place only one
commit has a leaf. -/
structure Moves (old new : Commit) (source target : List Bytes) : Prop where
  same : old.tree.leaf? source = new.tree.leaf? target
  present : (old.tree.leaf? source).isSome
  left : new.tree.leaf? source = none
  free : old.tree.leaf? target = none

/-- A file gives way to a directory of its name. -/
structure GivesWay (old new : Commit) (way : List Bytes) : Prop where
  file : (old.tree.leaf? way).isSome
  directory : (new.tree.subtree? way).isSome

theorem LeafDiffers.of_added {old new : Commit} {way : List Bytes}
    (before : old.tree.leaf? way = none) (after : (new.tree.leaf? way).isSome) :
    old.LeafDiffers new way := by
  obtain ⟨leaf, found⟩ := Option.isSome_iff_exists.1 after
  exact .added leaf before found

theorem LeafDiffers.of_deleted {old new : Commit} {way : List Bytes}
    (before : (old.tree.leaf? way).isSome) (after : new.tree.leaf? way = none) :
    old.LeafDiffers new way := by
  obtain ⟨leaf, found⟩ := Option.isSome_iff_exists.1 before
  exact .deleted leaf found after

/-- What gives way to a directory differs, and so does each leaf in the directory. -/
theorem GivesWay.leafDiffers {old new : Commit} {way : List Bytes} (gives : old.GivesWay new way) :
    old.LeafDiffers new way ∧ ∀ more, (new.tree.leaf? (way ++ more)).isSome →
      old.LeafDiffers new (way ++ more) := by
  obtain ⟨inside, leads⟩ := Option.isSome_iff_exists.1 gives.directory
  obtain ⟨leaf, found⟩ := Option.isSome_iff_exists.1 gives.file
  have gone : new.tree.leaf? way = none := Tree.leaf?_of_subtree leads
  refine ⟨.deleted leaf found gone, fun more present => ?_⟩
  have further : more ≠ [] := by
    rintro rfl
    rw [List.append_nil, gone] at present
    cases present
  exact .of_added (Tree.leaf?_append_of_leaf found further) present

/-- No leaf of a tree that stays the same differs. -/
theorem LeafDiffers.not_inside {old new : Commit} {way directory : List Bytes} {inside : Tree}
    (differs : old.LeafDiffers new way) (before : old.tree.subtree? directory = some inside)
    (after : new.tree.subtree? directory = some inside) : ¬ directory <+: way := by
  rintro ⟨more, rfl⟩
  apply leaf?_ne_iff.2 differs
  rw [Tree.leaf?_append before, Tree.leaf?_append after]

end Commit

namespace PullRequest
open Commit

/-- The difference of two commits of a repository, and what follows for files that are
moved, files that give way to directories, leaves that change in kind only, trees that stay
the same, and the other order of the commits. -/
theorem changedBetween_exact {r : Repository} {a b : String} {old new : Commit}
    (first : r.commit? a = some old) (second : r.commit? b = some new) :
    ∃ changes, (changedBetween r a b).1 = .ok changes ∧
      (∀ path, path ∈ changes ↔
        ∃ way, old.LeafDiffers new way ∧ (Path.ofWay way).posix = path) ∧
      (changedBetween r b a).1 = .ok changes ∧
      (∀ source target, old.Moves new source target →
        (Path.ofWay source).posix ∈ changes ∧ (Path.ofWay target).posix ∈ changes) ∧
      (∀ way, old.GivesWay new way → (Path.ofWay way).posix ∈ changes ∧
        ∀ more, (new.tree.leaf? (way ++ more)).isSome →
          (Path.ofWay (way ++ more)).posix ∈ changes) ∧
      (∀ way leaf leaf', old.tree.leaf? way = some leaf → new.tree.leaf? way = some leaf' →
        leaf.kind ≠ leaf'.kind → leaf.contents = leaf'.contents →
          (Path.ofWay way).posix ∈ changes) ∧
      ∀ directory inside, old.tree.subtree? directory = some inside →
        new.tree.subtree? directory = some inside →
        ∀ path ∈ changes, ∃ way, ¬ directory <+: way ∧ old.LeafDiffers new way ∧
          (Path.ofWay way).posix = path := by
  obtain ⟨changes, success, differ⟩ := changedBetween_ok first second
  obtain ⟨swapped, again, differ'⟩ := changedBetween_ok second first
  have same : swapped = changes := by
    refine TextSet.ext fun path => ?_
    rw [differ', differ, differsAt_comm]
  have exactly : ∀ path, path ∈ changes ↔
      ∃ way, old.LeafDiffers new way ∧ (Path.ofWay way).posix = path := by
    intro path
    rw [differ, differsAt_iff]
  have shows : ∀ way, old.LeafDiffers new way → (Path.ofWay way).posix ∈ changes :=
    fun way differs => (exactly _).2 ⟨way, differs, rfl⟩
  refine ⟨changes, success, exactly, same ▸ again, ?_, ?_, ?_, ?_⟩
  · intro source target moves
    exact ⟨shows _ (.of_deleted moves.present moves.left),
      shows _ (.of_added moves.free (moves.same ▸ moves.present))⟩
  · intro way gives
    obtain ⟨gone, come⟩ := gives.leafDiffers
    exact ⟨shows _ gone, fun more present => shows _ (come more present)⟩
  · intro way leaf leaf' before after kinds _
    exact shows _ (.modified leaf leaf' before after (Or.inl kinds))
  · intro directory inside before after path member
    obtain ⟨way, differs, posix⟩ := (exactly path).1 member
    exact ⟨way, differs.not_inside before after, differs, posix⟩

/-- Names in UTF-8. -/
def named (names : List String) : List Bytes := names.map Utf8.encode

/-- A tree that stays the same. -/
def keptTree : Tree := .leaf (Utf8.encode "list") ⟨.regular, [2]⟩ .empty

/-- The tree before files are moved: `src` is a file. -/
def formerTree : Tree :=
  .leaf (Utf8.encode "ci.sh") ⟨.regular, [1]⟩ <|
  .directory (Utf8.encode "etc") keptTree <|
  .leaf (Utf8.encode "sin.rs") ⟨.regular, [3]⟩ <|
  .leaf (Utf8.encode "src") ⟨.regular, [4]⟩ <|
  .leaf (Utf8.encode "src.rs") ⟨.regular, [5]⟩ <|
  .leaf [0xFF] ⟨.submodule, [6]⟩ .empty

/-- The tree afterwards: `src` is a directory, and stands behind `src.rs`. A script is
executable now, and an entry whose name is not UTF-8 is gone. -/
def latterTree : Tree :=
  .leaf (Utf8.encode "ci.sh") ⟨.executable, [1]⟩ <|
  .directory (Utf8.encode "etc") keptTree <|
  .leaf (Utf8.encode "src.rs") ⟨.regular, [5]⟩ <|
  .directory (Utf8.encode "src")
    (.directory (Utf8.encode "generic") (.leaf (Utf8.encode "tan.rs") ⟨.symlink, [5]⟩ .empty) <|
      .leaf (Utf8.encode "sin.rs") ⟨.regular, [3]⟩ .empty) .empty

/-- A commit with each of the trees. -/
def restructured : Commit × Commit :=
  (⟨"before", [], formerTree, "before", by decide +kernel⟩,
    ⟨"after", ["before"], latterTree, "after", by decide +kernel⟩)

/-- All that changes is listed in either order of the commits, and nothing of the directory
that stays. -/
theorem restructured_changes :
    ∃ changes, (changedBetween ⟨[], true, [restructured.1, restructured.2], []⟩
        "before" "after").1 = .ok changes ∧
      (changedBetween ⟨[], true, [restructured.1, restructured.2], []⟩
        "after" "before").1 = .ok changes ∧
      "ci.sh" ∈ changes ∧ "sin.rs" ∈ changes ∧ "src/sin.rs" ∈ changes ∧ "src" ∈ changes ∧
      "src/generic/tan.rs" ∈ changes ∧ "\uFFFD" ∈ changes ∧
      ∀ path ∈ changes, ∃ way, ¬ named ["etc"] <+: way ∧ (Path.ofWay way).posix = path := by
  have first : Repository.commit? ⟨[], true, [restructured.1, restructured.2], []⟩ "before" =
      some restructured.1 := by decide +kernel
  have second : Repository.commit? ⟨[], true, [restructured.1, restructured.2], []⟩ "after" =
      some restructured.2 := by decide +kernel
  obtain ⟨changes, success, exactly, swapped, moved, replaced, retyped, kept⟩ :=
    changedBetween_exact first second
  have moves : restructured.1.Moves restructured.2 (named ["sin.rs"]) (named ["src", "sin.rs"]) :=
    ⟨by decide +kernel, by decide +kernel, by decide +kernel, by decide +kernel⟩
  have gives : restructured.1.GivesWay restructured.2 (named ["src"]) :=
    ⟨by decide +kernel, by decide +kernel⟩
  have script := retyped (named ["ci.sh"]) ⟨.regular, [1]⟩ ⟨.executable, [1]⟩ (by decide +kernel)
    (by decide +kernel) (by decide) rfl
  have link : (Path.ofWay (named ["src", "generic", "tan.rs"])).posix ∈ changes :=
    (replaced _ gives).2 (named ["generic", "tan.rs"]) (by decide +kernel)
  have module := (exactly "\uFFFD").2 ⟨[[0xFF]], .deleted ⟨.submodule, [6]⟩ (by decide +kernel)
    (by decide +kernel), by decide +kernel⟩
  have written : ∀ {names : List String} {path : String},
      (Path.ofWay (named names)).posix ∈ changes →
        (Path.ofWay (named names)).posix = path → path ∈ changes :=
    fun member same => same ▸ member
  refine ⟨changes, success, swapped, written script (by decide +kernel),
    written (moved _ _ moves).1 (by decide +kernel),
    written (moved _ _ moves).2 (by decide +kernel),
    written (replaced _ gives).1 (by decide +kernel), written link (by decide +kernel), module,
    fun path member => ?_⟩
  obtain ⟨way, outside, _, posix⟩ :=
    kept (named ["etc"]) keptTree (by decide +kernel) (by decide +kernel) path member
  exact ⟨way, outside, posix⟩

end PullRequest

end RoutineWatch
