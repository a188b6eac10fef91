import RoutineWatch.Proofs.FileTree.Paths
import RoutineWatch.SourceScan

/-!
# Sources in a tree that grows

The sources of the architectures are the same as long as none of the files that are written
is one of them, and their directory does not come up only then.

- `SourceScan.load_of_changes`: writing other files leaves what is read.
-/
namespace RoutineWatch.SourceScan
open FileTree

/-- A place below a directory that the name of a source file stands at. -/
def IsSourcePlace (top place : Place) : Prop :=
  ∃ rest name, below? top place = some rest ∧ rest.getLast? = some name ∧
    extension? name = some sourceExtension

theorem not_isSourcePlace_of_outside {top place : Place} (outside : below? top place = none) :
    ¬ IsSourcePlace top place := by
  rintro ⟨rest, name, below, _⟩
  rw [outside] at below
  cases below

/-- What an entry is of a scan. -/
def source? (top : Place) (e : Place × FileNode) : Option (Place × Bytes) :=
  (below? top e.1).bind fun rest =>
    match rest.getLast?, e.2 with
    | some name, .file contents executable =>
      if isSource name (.file contents executable) then some (rest, contents) else none
    | _, _ => none

theorem sourcesBelow_eq (t : FileTree) (top : Place) :
    sourcesBelow t top =
      (t.entries.filterMap (source? top)).mergeSort fun a b => !placeLess b.1 a.1 := by
  unfold sourcesBelow below
  dsimp only
  rw [List.filterMap_filterMap]
  congr 2
  funext e
  unfold source?
  cases below? top e.1 <;> rfl

/-- A source is a file at a place of sources. -/
theorem source?_eq_none {top : Place} {e : Place × FileNode}
    (other : e.2 = .directory ∨ ¬ IsSourcePlace top e.1) : source? top e = none := by
  obtain ⟨place, node⟩ := e
  unfold source?
  cases inside : below? top place with
  | none => rfl
  | some rest =>
    rw [Option.bind_some]
    dsimp only
    split
    · next name contents executable last =>
      refine if_neg fun named => ?_
      rcases other with directory | apart
      · cases directory
      · exact apart ⟨rest, name, inside, last, by simpa [isSource] using named⟩
    · rfl

/-- What is put where no source stands is no source. -/
theorem filterMap_put {t : FileTree} {top place : Place} {node : FileNode}
    (new : source? top (place, node) = none)
    (old : ∀ e ∈ t.entries, e.1 = place → source? top e = none) :
    (t.put place node).entries.filterMap (source? top) = t.entries.filterMap (source? top) := by
  unfold put
  split
  · rw [List.filterMap_map]
    apply List.filterMap_congr
    intro e member
    by_cases here : e.1 = place
    · simp [here, new, old e member here]
    · simp [here]
  · simp [new]

/-- Writing other files leaves the sources. -/
theorem sourcesBelow_of_changes {written : Place → Prop} {t t' : FileTree} {top : Place}
    (changes : Changes written t t') (apart : ∀ place, written place → ¬ IsSourcePlace top place) :
    sourcesBelow t' top = sourcesBelow t top := by
  rw [sourcesBelow_eq, sourcesBelow_eq]
  induction changes with
  | refl => rfl
  | tail _ change ih =>
    rw [← ih]
    cases change with
    | directory vacant =>
      rw [filterMap_put (source?_eq_none (Or.inl rfl))]
      intro e member here
      exact absurd here (not_mem_of_vacant vacant member)
    | file here free =>
      rw [filterMap_put (source?_eq_none (Or.inr (apart _ here)))]
      rintro e _ rfl
      exact source?_eq_none (Or.inr (apart _ here))

/-- What is read of a directory that is there. -/
theorem load_of_directory {t : FileTree} {here top : Place} {root : Path} {dir : String}
    (located : t.locate? here (root.join (Path.ofString dir)) = .ok top)
    (directory : t.node? top = some .directory) :
    (load t here root dir).1 =
      ((sourcesBelow t top).mapM (readSource root (root.join (Path.ofString dir)))).map fun files =>
        files.mergeSort fun a b => !(b.path < a.path) := by
  unfold load
  dsimp only
  rw [located]
  dsimp only
  rw [if_pos directory]

/-- What is not there has no sources. -/
theorem load_of_no_directory {t : FileTree} {here : Place} {root : Path} {dir : String}
    (none : t.isDirectory here (root.join (Path.ofString dir)) = false) :
    (load t here root dir).1 = .ok [] := by
  unfold isDirectory lookup? at none
  unfold load
  dsimp only
  split
  · next top located =>
    rw [located] at none
    rw [if_neg (by simpa using none)]
  · rfl

/-- Writing other files leaves what is read, unless sources come up with the directory. -/
theorem load_of_changes {written : Place → Prop} {t t' : FileTree} {here : Place} {root : Path}
    {dir : String} (changes : Changes written t t')
    (apart : ∀ top, t'.locate? here (root.join (Path.ofString dir)) = .ok top →
      ∀ place, written place → ¬ IsSourcePlace top place)
    (known : t.isDirectory here (root.join (Path.ofString dir)) = true ∨
      (load t' here root dir).1 = .ok []) :
    (load t' here root dir).1 = (load t here root dir).1 := by
  cases present : t.isDirectory here (root.join (Path.ofString dir)) with
  | false =>
    rw [load_of_no_directory present]
    exact known.resolve_left (by simp [present])
  | true =>
    obtain ⟨top, located, directory⟩ := isDirectory_iff.1 present
    have still := changes.keeps.locate? located
    rw [load_of_directory located directory,
      load_of_directory still (changes.keeps.directory directory),
      sourcesBelow_of_changes changes (apart top still)]

end RoutineWatch.SourceScan
