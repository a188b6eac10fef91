import RoutineWatch.Proofs.Extraction.Registry
import RoutineWatch.Proofs.Git.Changes
import RoutineWatch.Proofs.Path.Normal
import RoutineWatch.Proofs.SourceScan.Loading

/-!
# Paths meet in their normal forms

A set of changes holds the normal forms of the paths that it was made of and nothing else;
and what the extraction lists as a source is a normal form, for it is the file of a
declaration, written so, or a file of the scan, which is named so.

- `ChangeSet.ofPaths_eq_iff`: when two sets of changes are the same.
- `Path.posix_normalizes`: normal forms, sets of changes and extracted sources.
-/
namespace RoutineWatch

/-- Sets of changes are the same if their paths have the same normal forms. -/
theorem ChangeSet.ofPaths_eq_iff {paths others : List Path} :
    ofPaths paths = ofPaths others ↔
      ∀ text, (∃ p ∈ paths, p.posix = text) ↔ ∃ p ∈ others, p.posix = text := by
  constructor
  · intro same text
    rw [← mem_ofPaths, ← mem_ofPaths, same]
  · intro same
    apply TextSet.ext
    intro text
    rw [mem_ofPaths, mem_ofPaths]
    exact same text

/-- A scan names its files in normal form. -/
theorem SourceScan.exists_posix_of_load {t : FileTree} {here : Place} {root : Path} {dir : String}
    {files : List SourceFile} (loaded : (load t here root dir).1 = .ok files) {file : SourceFile}
    (member : file ∈ files) : ∃ p : Path, p.posix = file.path := by
  cases present : t.isDirectory here (root.join (Path.ofString dir)) with
  | false =>
    rw [load_of_no_directory present] at loaded
    cases loaded
    cases member
  | true =>
    obtain ⟨top, located, directory⟩ := FileTree.isDirectory_iff.1 present
    obtain ⟨found, read, sorted⟩ := (load_eq_ok_iff located directory).1 loaded
    rw [← sorted, List.mem_mergeSort] at member
    obtain ⟨entry, _, one⟩ := exists_of_mapM_eq_ok read member
    exact ⟨_, (readSource_eq_ok_iff.1 one).1.symm⟩

namespace Extraction
variable {rule : ExtractionRule} {index : DocIndex} {files : List SourceFile}

/-- What is listed as a source defines some name. -/
theorem exists_defines_of_source {name : String} {routine : Routine}
    (found : (extract rule index files).get? name = some routine) {source : String}
    (member : source ∈ routine.sources) : ∃ other, Defines index files other source := by
  have whole : extract rule index files =
      registryOf (propagate rule (scanned rule index files)) := rfl
  rw [whole] at found
  obtain ⟨_, sources⟩ := get?_registryOf found
  obtain own | ⟨_, base, _⟩ := (lists_propagate rule _ name source).1 ((sources source).1 member)
  · exact ⟨name, ((lists_scanned rule index files name source).1 own).2⟩
  · exact ⟨RoutineName.base name,
      ((lists_scanned rule index files (RoutineName.base name) source).1 base).2⟩

/-- The path that a name is defined at is a normal form, if those of the files are. -/
theorem exists_posix_of_defines (normal : ∀ file ∈ files, ∃ p : Path, p.posix = file.path)
    {name source : String} (defines : Defines index files name source) :
    ∃ p : Path, p.posix = source := by
  obtain ⟨item, _, _, _, file, _, written⟩ | ⟨file, member, same, _⟩ := defines
  · exact ⟨Path.ofString file, written⟩
  · rw [← same]
    exact normal file member

end Extraction

/-- Normal forms. A path's is its own, and has no idle part; texts have one normal form exactly
if they go the same way. So a set of changes holds a text exactly if it is the normal form of
one of its paths, and two sets are the same if these are; and all sources that are extracted
with the files of a scan are normal forms. -/
theorem Path.posix_normalizes :
    (∀ p : Path, (ofString p.posix).posix = p.posix ∧ IsNormal p.posix) ∧
    (∀ a b : String, (ofString a).posix = (ofString b).posix ↔
      SameWay (ofString a) (ofString b)) ∧
    (∀ paths text, text ∈ ChangeSet.ofPaths paths ↔ ∃ p ∈ paths, p.posix = text) ∧
    (∀ paths others, ChangeSet.ofPaths paths = ChangeSet.ofPaths others ↔
      ∀ text, (∃ p ∈ paths, p.posix = text) ↔ ∃ p ∈ others, p.posix = text) ∧
    ∀ t here root dir files, (SourceScan.load t here root dir).1 = .ok files →
      ∀ rule index name routine, (Extraction.extract rule index files).get? name = some routine →
        ∀ source ∈ routine.sources, (ofString source).posix = source := by
  refine ⟨fun p => ⟨p.posix_posix, isNormal_posix p⟩, posix_ofString_eq_iff,
    fun paths text => ChangeSet.mem_ofPaths, fun paths others => ChangeSet.ofPaths_eq_iff, ?_⟩
  intro t here root dir files loaded rule index name routine found source member
  obtain ⟨other, defines⟩ := Extraction.exists_defines_of_source found member
  have normal : ∀ file ∈ files, ∃ p : Path, p.posix = file.path :=
    fun file listed => SourceScan.exists_posix_of_load loaded listed
  obtain ⟨p, rfl⟩ := Extraction.exists_posix_of_defines normal defines
  exact p.posix_posix

namespace Extraction

/-- A public function whose declaration is spelled with a dot and two slashes. -/
def respelledIndex : DocIndex :=
  ⟨.object [("index", .object [("1", sampleFunction "sin" "./src//sin.rs"), ("2", sampleUse "1")])]⟩

/-- An architecture that defines it too. -/
def architectureTree : FileTree :=
  let place (names : List String) : Place := names.map Utf8.encode
  ⟨[(place ["arch"], .directory),
    (place ["arch", "x86.rs"], .file (Utf8.encode "fn sin() \x7b\x7d") false)]⟩

theorem respelledIndex_sources :
    ∃ files routine, (SourceScan.load architectureTree [] (Path.ofString "/") "./arch/").1 =
        .ok files ∧
      (extract sampleRule respelledIndex files).get? "sin" = some routine ∧
      routine.sources.toList = ["arch/x86.rs", "src/sin.rs"] ∧
      (Path.ofString "arch/x86.rs").posix = "arch/x86.rs" ∧
      (Path.ofString "src/sin.rs").posix = "src/sin.rs" := by
  have loaded : (SourceScan.load architectureTree [] (Path.ofString "/") "./arch/").1 =
      .ok [⟨"arch/x86.rs", "fn sin() \x7b\x7d"⟩] := by
    cbv
  have found : (extract sampleRule respelledIndex [⟨"arch/x86.rs", "fn sin() \x7b\x7d"⟩]).get?
      "sin" = some ⟨TextSet.ofList ["arch/x86.rs", "src/sin.rs"], .f64⟩ := by
    decide +kernel
  obtain ⟨_, _, _, _, sources⟩ := Path.posix_normalizes
  have normal := sources _ _ _ _ _ loaded _ _ _ _ found
  exact ⟨_, _, loaded, found, by decide +kernel, normal _ (by decide +kernel),
    normal _ (by decide +kernel)⟩

end Extraction

end RoutineWatch
