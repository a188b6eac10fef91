import Mathlib
import RoutineWatch.Baseline.Lookup
import RoutineWatch.Proofs.FileTree.Descent
import RoutineWatch.Proofs.Text.ByteOrder

/-!
# Which archive is the newest

The greatest of the archives that stand exactly two levels below the working directory under
names that both match the glob. The order is that of the paths' components and not that of
the paths as texts, and it does not matter in which order the directories are listed, nor
which other directories cannot be read.

- `Archive.IsArchive`: what an archive is.
- `Baseline.newestArchiveListed_exact`: which one is found, and when there is none.
-/
namespace RoutineWatch
open RoutineWatch.Path (IsName)

/-! Listings -/

/-- A listing shows all names in the directories that can be read, and none in the others. -/
structure Listing.Shows (list : Listing) (t : FileTree) (readable : Place → Prop) : Prop where
  all : ∀ place, readable place →
    ∀ name, name ∈ list place ↔ (t.node? (place ++ [name])).isSome = true
  none : ∀ place, ¬ readable place → list place = []

/-- The names in a directory are those under which something stands there. -/
theorem FileTree.mem_names_iff {t : FileTree} {place : Place} {name : Bytes} :
    name ∈ t.names place ↔ (t.node? (place ++ [name])).isSome = true := by
  have stands : (t.node? (place ++ [name])).isSome = true ↔
      ∃ e ∈ t.entries, e.1 = place ++ [name] := by
    rw [node?, if_neg (by simp), Option.isSome_map, List.find?_isSome]
    simp only [decide_eq_true_eq]
  rw [stands]
  constructor
  · intro listed
    obtain ⟨e, member, shown⟩ := List.mem_filterMap.1 listed
    refine ⟨e, member, ?_⟩
    split at shown
    · next last ends =>
      obtain ⟨above, whole⟩ := List.getLast?_eq_some_iff.1 ends
      rw [whole, List.dropLast_concat] at shown
      split at shown
      · next here =>
        cases shown
        rw [whole, here]
      · cases shown
    · cases shown
  · intro entry
    obtain ⟨e, member, whole⟩ := entry
    exact List.mem_filterMap.2 ⟨e, member, by simp [whole]⟩

/-- Where every directory can be read, the names of a tree are a listing. -/
theorem FileTree.shows_names (t : FileTree) : Listing.Shows t.names t fun _ => True :=
  ⟨fun _ _ _ => mem_names_iff, fun _ unreadable => absurd trivial unreadable⟩

namespace Archive

/-! The greatest of some archives -/

/-- The names that lead to an archive. -/
def row (a : Archive) : List Bytes := [a.directory, a.name]

theorem row_inj {a b : Archive} (same : a.row = b.row) : a = b := by
  obtain ⟨directory, name⟩ := a
  simp_all [row]

theorem less_iff {a b : Archive} : a.less b = true ↔ a.row < b.row := by
  simp [less, row, bytesLess_iff, List.cons_lt_cons_iff]

/-- One archive and others are searched for the greatest of them all. -/
theorem greatest?_cons (first : Archive) (archives : List Archive) :
    ∃ m, greatest? (first :: archives) = some m ∧ m ∈ first :: archives ∧
      ∀ a ∈ first :: archives, a.row ≤ m.row := by
  induction archives generalizing first with
  | nil => exact ⟨first, rfl, List.mem_cons_self, by simp [Std.le_refl]⟩
  | cons next archives ih =>
    by_cases newer : first.less next = true
    · obtain ⟨m, found, member, bound⟩ := ih next
      refine ⟨m, ?_, List.mem_cons_of_mem first member, ?_⟩
      · rw [← found]
        simp [greatest?, newer]
      · refine List.forall_mem_cons.2 ⟨?_, bound⟩
        have one := Std.le_of_lt (less_iff.1 newer)
        exact Std.le_trans one (bound next List.mem_cons_self)
    · obtain ⟨m, found, member, bound⟩ := ih first
      obtain ⟨own, others⟩ := List.forall_mem_cons.1 bound
      refine ⟨m, ?_, ?_, ?_⟩
      · rw [← found]
        simp [greatest?, newer]
      · rcases List.mem_cons.1 member with same | later
        · exact same ▸ List.mem_cons_self
        · exact List.mem_cons_of_mem first (List.mem_cons_of_mem next later)
      · have older : next.row ≤ first.row := Std.not_lt.1 fun less => newer (less_iff.2 less)
        exact List.forall_mem_cons.2
          ⟨own, List.forall_mem_cons.2 ⟨Std.le_trans older own, others⟩⟩

theorem greatest?_eq_none_iff {archives : List Archive} :
    greatest? archives = none ↔ archives = [] := by
  constructor
  · intro none
    cases archives with
    | nil => rfl
    | cons first archives =>
      obtain ⟨m, found, _⟩ := greatest?_cons first archives
      rw [found] at none
      cases none
  · intro empty
    rw [empty]
    rfl

theorem greatest?_eq_some_iff {archives : List Archive} {m : Archive} :
    greatest? archives = some m ↔ m ∈ archives ∧ ∀ a ∈ archives, a.row ≤ m.row := by
  cases archives with
  | nil => simp [greatest?]
  | cons first archives =>
    obtain ⟨best, found, member, bound⟩ := greatest?_cons first archives
    rw [found, Option.some.injEq]
    constructor
    · intro same
      rw [← same]
      exact ⟨member, bound⟩
    · intro greatest
      exact row_inj (Std.le_antisymm (greatest.2 best member) (bound m greatest.1))

/-! Archives two levels below a directory -/

section
variable (t : FileTree) (readable : Place → Prop)

/-- A name that stands in the directory that a path leads to, if that can be read. -/
def IsEntry (dir : Path) (name : Bytes) : Prop :=
  ∃ place, t.locate? [] dir = .ok place ∧ t.node? place = some .directory ∧ readable place ∧
    (t.node? (place ++ [name])).isSome = true

/-- An archive below the working directory: a file in a directory in it, links followed, with
names that match the glob. -/
structure IsArchive (g : Glob) (cwd : Path) (a : Archive) : Prop where
  above : IsEntry t readable cwd a.directory
  aboveMatches : g.Matches a.directory
  directory : t.isDirectory [] (cwd.child a.directory) = true
  entry : IsEntry t readable (cwd.child a.directory) a.name
  nameMatches : g.Matches a.name
  file : t.isFile [] ((cwd.child a.directory).child a.name) = true

end

section
variable {list : Listing} {t : FileTree} {readable : Place → Prop} {g : Glob} {cwd : Path}

theorem mem_matchingNames_iff (shows : list.Shows t readable) {dir : Path} {name : Bytes} :
    name ∈ matchingNames list t g dir ↔ IsEntry t readable dir name ∧ g.Matches name := by
  unfold matchingNames IsEntry
  cases located : t.locate? [] dir with
  | error code => simp
  | ok place =>
    by_cases directory : t.node? place = some .directory
    · simp only [directory, ↓reduceIte, List.mem_filter, Glob.accepts_iff, Except.ok.injEq,
        exists_eq_left', true_and, and_congr_left_iff]
      intro _
      by_cases read : readable place
      · rw [shows.all place read]
        exact (and_iff_right read).symm
      · simp [shows.none place read, read]
    · simp [directory]

theorem mem_candidates_iff (shows : list.Shows t readable) {a : Archive} :
    a ∈ candidates list t g cwd ↔ IsArchive t readable g cwd a := by
  obtain ⟨directory, name⟩ := a
  unfold candidates inDirectory
  rw [List.mem_flatMap]
  constructor
  · intro found
    obtain ⟨top, above, inside⟩ := found
    dsimp only at inside
    split at inside
    · next isDirectory =>
      obtain ⟨own, listed, same⟩ := List.mem_map.1 inside
      cases same
      obtain ⟨entry, file⟩ := List.mem_filter.1 listed
      obtain ⟨above, aboveMatches⟩ := (mem_matchingNames_iff shows).1 above
      obtain ⟨entry, nameMatches⟩ := (mem_matchingNames_iff shows).1 entry
      exact ⟨above, aboveMatches, isDirectory, entry, nameMatches, file⟩
    · cases inside
  · intro archive
    refine ⟨directory, (mem_matchingNames_iff shows).2 ⟨archive.above, archive.aboveMatches⟩, ?_⟩
    rw [if_pos archive.directory]
    have entry := (mem_matchingNames_iff shows).2 ⟨archive.entry, archive.nameMatches⟩
    exact List.mem_map_of_mem (List.mem_filter.2 ⟨entry, archive.file⟩)

/-- What stands in a directory has a proper name. -/
theorem IsEntry.isName (formed : t.WellFormed) {dir : Path} {name : Bytes}
    (entry : IsEntry t readable dir name) : IsName name := by
  obtain ⟨place, _, _, _, stands⟩ := entry
  obtain ⟨node, stands⟩ := Option.isSome_iff_exists.1 stands
  exact (formed.parent stands).1

/-- The path of an archive has the archive's two names as its components. -/
theorem IsArchive.components_path (formed : t.WellFormed) {a : Archive}
    (archive : IsArchive t readable g cwd a) : a.path.components = a.row := by
  have above := archive.above.isName formed
  have own := archive.entry.isName formed
  have first : (⟨a.directory⟩ : Path).components = [a.directory] := by
    unfold Path.components
    rw [above.relative, above.pieces, above.parts]
    simp [above.notDot]
  have both : ((⟨a.directory⟩ : Path).under [a.name]).components = [a.directory] ++ [a.name] := by
    rw [Path.components_under above.filled (List.forall_mem_singleton.2 own), first]
  exact both

end

end Archive

namespace Baseline
open Archive

/-- The paths of the archives, from the working directory. -/
def ArchiveAt (t : FileTree) (readable : Place → Prop) (g : Glob) (cwd p : Path) : Prop :=
  ∃ directory name, IsArchive t readable g cwd ⟨directory, name⟩ ∧
    p = (⟨directory⟩ : Path).child name

section
variable {list : Listing} {t : FileTree} {readable : Place → Prop}

theorem newestListed?_path_iff (formed : t.WellFormed) (shows : list.Shows t readable) {g : Glob}
    {cwd p : Path} :
    (newestListed? list t g cwd).map Archive.path = some p ↔
      ArchiveAt t readable g cwd p ∧
        ∀ q, ArchiveAt t readable g cwd q → q.components ≤ p.components := by
  simp only [Option.map_eq_some_iff, newestListed?, greatest?_eq_some_iff,
    mem_candidates_iff shows]
  constructor
  · intro found
    obtain ⟨a, ⟨archive, bound⟩, rfl⟩ := found
    refine ⟨⟨a.directory, a.name, archive, rfl⟩, ?_⟩
    intro q other
    obtain ⟨directory, name, archive', rfl⟩ := other
    have le := bound _ archive'
    rw [← archive.components_path formed, ← archive'.components_path formed] at le
    exact le
  · intro greatest
    obtain ⟨⟨directory, name, archive, rfl⟩, bound⟩ := greatest
    refine ⟨⟨directory, name⟩, ⟨archive, ?_⟩, rfl⟩
    intro a archive'
    have le := bound a.path ⟨a.directory, a.name, archive', rfl⟩
    rw [archive'.components_path formed] at le
    exact archive.components_path formed ▸ le

/-- Where every directory can be read, the order in which they are listed makes no difference. -/
theorem newestArchiveListed_eq (formed : t.WellFormed) (shows : list.Shows t fun _ => True)
    (cwd : Path) (pattern : String) :
    newestArchiveListed list t cwd pattern = newestArchive t cwd pattern := by
  unfold newestArchive newestArchiveListed
  cases Glob.parse pattern with
  | error fault => rfl
  | ok g =>
    have same : (newestListed? list t g cwd).map Archive.path =
        (newestListed? t.names t g cwd).map Archive.path := by
      apply Option.ext
      intro p
      rw [newestListed?_path_iff formed shows, newestListed?_path_iff formed t.shows_names]
    dsimp only
    rw [same]

/-- However the directories of a tree are listed and whichever of them can be read, the newest
archive is the greatest of the files two levels below the working directory whose names both
match; and there is none exactly if there is no such file or the pattern is no glob. -/
theorem newestArchiveListed_exact (formed : t.WellFormed) (shows : list.Shows t readable)
    (cwd : Path) (pattern : String) :
    (∀ p, (newestArchiveListed list t cwd pattern).1 = some p ↔
      ∃ g, Glob.parse pattern = .ok g ∧ ArchiveAt t readable g cwd p ∧
        ∀ q, ArchiveAt t readable g cwd q → q.components ≤ p.components) ∧
    ((newestArchiveListed list t cwd pattern).1 = none ↔
      (∃ fault, Glob.parse pattern = .error fault) ∨
        ∃ g, Glob.parse pattern = .ok g ∧ ∀ p, ¬ ArchiveAt t readable g cwd p) := by
  unfold newestArchiveListed
  cases Glob.parse pattern with
  | error fault => simp
  | ok g =>
    simp only [Except.ok.injEq, exists_eq_left', reduceCtorEq, exists_false, false_or]
    refine ⟨fun p => newestListed?_path_iff formed shows, ?_⟩
    rw [Option.map_eq_none_iff, newestListed?, greatest?_eq_none_iff,
      List.eq_nil_iff_forall_not_mem]
    constructor
    · intro empty p found
      obtain ⟨directory, name, archive, _⟩ := found
      exact empty _ ((mem_candidates_iff shows).2 archive)
    · intro empty a member
      exact empty a.path ⟨a.directory, a.name, (mem_candidates_iff shows).1 member, rfl⟩

end

/-- A tree where the newest archive is a link in a directory whose name goes on where another
one's ends. Of what is greater, one stands in a directory that cannot be read, one in a directory
that does not match, and one is a directory. -/
def crowdedTree : FileTree :=
  let place (names : List String) : Place := names.map Utf8.encode
  ⟨[(place ["w"], .directory), (place ["w", "a"], .directory),
    (place ["w", "a", "a.tar"], .file [] false), (place ["w", "a-1"], .directory),
    (place ["w", "a-1", "a-1.tar"], .link (Path.ofString "data")),
    (place ["w", "a-1", "data"], .file [] false), (place ["w", "a-1", "a-2.tar"], .directory),
    (place ["w", "a-2"], .directory), (place ["w", "a-2", "a-2.tar"], .file [] false),
    (place ["w", "b"], .directory), (place ["w", "b", "a-3.tar"], .file [] false)]⟩

/-- The directory that cannot be read. -/
def sealedPlace : Place := ["w", "a-2"].map Utf8.encode

/-- The names in the opposite order. -/
def reversedListing : Listing := fun place =>
  if place = sealedPlace then [] else (crowdedTree.names place).reverse

theorem shows_reversedListing :
    reversedListing.Shows crowdedTree fun place => place ≠ sealedPlace where
  all := by
    intro place readable name
    rw [reversedListing, if_neg readable, List.mem_reverse]
    exact FileTree.mem_names_iff
  none := by
    intro place unreadable
    rw [reversedListing, if_pos (not_not.1 unreadable)]

theorem crowdedTree_newest :
    crowdedTree.WellFormed ∧ reversedListing.Shows crowdedTree (fun place => place ≠ sealedPlace) ∧
      ∃ g, Glob.parse "a*" = .ok g ∧
        ArchiveAt crowdedTree (fun place => place ≠ sealedPlace) g (Path.ofString "/w")
          (Path.ofString "a-1/a-1.tar") ∧
        ∀ q, ArchiveAt crowdedTree (fun place => place ≠ sealedPlace) g (Path.ofString "/w") q →
          q.components ≤ ["a-1", "a-1.tar"].map Utf8.encode := by
  have formed : crowdedTree.WellFormed := by decide +kernel
  have found : (newestArchiveListed reversedListing crowdedTree (Path.ofString "/w") "a*").1 =
      some (Path.ofString "a-1/a-1.tar") := by
    cbv
  have components : (Path.ofString "a-1/a-1.tar").components =
      ["a-1", "a-1.tar"].map Utf8.encode := by
    decide +kernel
  obtain ⟨newest, _⟩ :=
    newestArchiveListed_exact formed shows_reversedListing (Path.ofString "/w") "a*"
  obtain ⟨g, parsed, archive, bound⟩ := (newest _).1 found
  rw [components] at bound
  exact ⟨formed, shows_reversedListing, g, parsed, archive, bound⟩

end Baseline

end RoutineWatch
