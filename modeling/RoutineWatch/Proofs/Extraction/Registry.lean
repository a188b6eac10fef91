import RoutineWatch.Proofs.Extraction.Tables

/-!
# The registry of an index

A path is a source of a name if it defines the name, or if it is shared and defines the
name's base; what the base got from its own base does not count, and the order in which the
names are visited does not matter.

- `Extraction.Defines`: what it is to define a name.
- `Extraction.extract_exact`: the names, their types and their sources.
-/
namespace RoutineWatch.Extraction
variable (rule : ExtractionRule) (index : DocIndex) (files : List SourceFile)

/-- A path defines a name: a function item of that name is declared there, or it is the
path of a source file with the name's definition text. -/
def Defines (name path : String) : Prop :=
  (∃ item ∈ index.items, Declares item name path) ∨
    ∃ file ∈ files, file.path = path ∧ definitionText name <:+: file.contents.toList

/-- The sources before shared ones are added. -/
def scanned : SourceTable :=
  (scan files (publicFunctions rule index) (declared index (publicFunctions rule index))).1

theorem keys_scanned : (scanned rule index files).keys = (publicFunctions rule index).toList := by
  unfold scanned declared
  rw [scan_table, (adds_scanTable _).foldl.keys, adds_addDeclaration.foldl.keys,
    SourceTable.keys_ofNames]

theorem lists_scanned (name path : String) :
    (scanned rule index files).Lists name path ↔
      name ∈ publicFunctions rule index ∧ Defines index files name path := by
  unfold scanned declared
  rw [scan_table, (adds_scanTable _).foldl.lists, adds_addDeclaration.foldl.lists,
    adds_addDeclaration.foldl.keys, SourceTable.keys_ofNames, ← TextSet.mem_def]
  unfold Mentions Defines
  constructor
  · rintro ((before | ⟨known, item⟩) | ⟨known, file, member, here, _, occurs⟩)
    · exact absurd before (SourceTable.not_lists_ofNames _ name path)
    · exact ⟨known, Or.inl item⟩
    · exact ⟨known, Or.inr ⟨file, member, here, occurs⟩⟩
  · rintro ⟨known, item | ⟨file, member, here, occurs⟩⟩
    · exact Or.inl (Or.inr ⟨known, item⟩)
    · exact Or.inr ⟨known, file, member, here, known, occurs⟩

theorem keys_propagate (table : SourceTable) : (propagate rule table).keys = table.keys :=
  (adds_addShared rule table).foldl.keys table table.keys

theorem lists_propagate (table : SourceTable) (name path : String) :
    (propagate rule table).Lists name path ↔
      table.Lists name path ∨
        name ∈ table.keys ∧ table.Lists (RoutineName.base name) path ∧
          rule.genericMarker.toList <:+: path.toList := by
  unfold propagate
  rw [(adds_addShared rule table).foldl.lists]
  unfold SharedWith
  constructor
  · rintro (before | ⟨known, _, _, rfl, shared⟩)
    · exact Or.inl before
    · exact Or.inr ⟨known, shared⟩
  · rintro (before | ⟨known, shared⟩)
    · exact Or.inl before
    · exact Or.inr ⟨known, name, known, rfl, shared⟩

/-- The registry of a table of sources. -/
def registryOf (table : SourceTable) : Registry :=
  table.mapValues fun name sources => ⟨sources, RoutineName.type name⟩

theorem keys_registryOf (table : SourceTable) : (registryOf table).keys = table.keys := by
  unfold registryOf TextMap.mapValues TextMap.keys
  rw [List.map_map]
  rfl

theorem get?_registryOf {table : SourceTable} {name : String} {routine : Routine}
    (found : (registryOf table).get? name = some routine) :
    routine.type = RoutineName.type name ∧
      ∀ path, path ∈ routine.sources ↔ table.Lists name path := by
  unfold registryOf at found
  rw [TextMap.get?_mapValues] at found
  obtain ⟨paths, entry, rfl⟩ := Option.map_eq_some_iff.1 found
  refine ⟨rfl, fun path => ?_⟩
  unfold SourceTable.Lists
  rw [entry]
  simp

/-- The registry has exactly the public functions, each with its type and with the paths
that define it or that are shared and define its base, whatever the order in which shared
sources are handed on. -/
theorem extract_exact :
    (extract rule index files).keys = (publicFunctions rule index).toList ∧
    (∀ name routine, (extract rule index files).get? name = some routine →
      routine.type = RoutineName.type name ∧
      ∀ path, path ∈ routine.sources ↔
        Defines index files name path ∨
          RoutineName.base name ∈ publicFunctions rule index ∧
          rule.genericMarker.toList <:+: path.toList ∧
          Defines index files (RoutineName.base name) path) ∧
    ∀ order : List String, order.Perm (publicFunctions rule index).toList →
      extract rule index files = registryOf
        (order.foldl (addShared rule (scanned rule index files)) (scanned rule index files)) := by
  have whole : extract rule index files =
      registryOf (propagate rule (scanned rule index files)) := rfl
  have keys := keys_scanned rule index files
  rw [whole]
  refine ⟨?_, ?_, ?_⟩
  · rw [keys_registryOf, keys_propagate, keys]
  · intro name routine found
    obtain ⟨type, sources⟩ := get?_registryOf found
    have member : name ∈ publicFunctions rule index := by
      rw [TextSet.mem_def, ← keys, ← keys_propagate, ← keys_registryOf]
      exact TextMap.mem_keys_iff.2 ⟨routine, found⟩
    refine ⟨type, fun path => ?_⟩
    rw [sources, lists_propagate, lists_scanned, lists_scanned, keys, ← TextSet.mem_def]
    constructor
    · rintro (⟨_, defines⟩ | ⟨_, ⟨base, defines⟩, shared⟩)
      · exact Or.inl defines
      · exact Or.inr ⟨base, shared, defines⟩
    · rintro (defines | ⟨base, shared, defines⟩)
      · exact Or.inl ⟨member, defines⟩
      · exact Or.inr ⟨member, ⟨base, defines⟩, shared⟩
  · intro order same
    rw [← keys] at same
    rw [propagate, (adds_addShared rule _).foldl_perm same]

/-- A function item. -/
def sampleFunction (name file : String) : Json :=
  .object [("inner", .object [("function", .object [])]), ("name", .string name),
    ("span", .object [("filename", .string file)])]

/-- A public re-export. -/
def sampleUse (id : String) : Json :=
  .object [("inner", .object [("use", .object [("id", .string id)])]),
    ("span", .object [("filename", .string "src/math.rs")]), ("visibility", .string "public")]

/-- Re-exports of one module, and one directory of shared files. -/
def sampleRule : ExtractionRule := ⟨["src/math.rs"], "/generic/"⟩

/-- Two public functions, of which one is the base of the other. -/
def sampleIndex : DocIndex :=
  ⟨.object [("index", .object [("1", sampleFunction "sin" "src/generic/sin.rs"),
    ("2", sampleFunction "sinf" "src/sinf.rs"), ("3", sampleUse "1"), ("4", sampleUse "2")])]⟩

theorem sampleIndex_extract :
    ∃ routine, (extract sampleRule sampleIndex []).get? "sinf" = some routine ∧
      routine.type = .f32 ∧ "src/generic/sin.rs" ∈ routine.sources ∧
      ["sinf", "sin"].Perm (publicFunctions sampleRule sampleIndex).toList ∧
      ∃ table, extract sampleRule sampleIndex [] = registryOf table := by
  obtain ⟨_, routines, orders⟩ := extract_exact sampleRule sampleIndex []
  have found : (extract sampleRule sampleIndex []).get? "sinf" =
      some ⟨TextSet.ofList ["src/sinf.rs", "src/generic/sin.rs"], .f32⟩ := by
    decide +kernel
  have visited : ["sinf", "sin"].Perm
      (publicFunctions sampleRule sampleIndex).toList := by
    decide +kernel
  have declares : Defines sampleIndex [] "sin" "src/generic/sin.rs" :=
    Or.inl ⟨⟨sampleFunction "sin" "src/generic/sin.rs"⟩, List.mem_cons_self,
      by decide +kernel, by decide +kernel, "src/generic/sin.rs", by decide +kernel,
      by decide +kernel⟩
  obtain ⟨type, sources⟩ := routines "sinf" _ found
  have shared := (sources "src/generic/sin.rs").2
    (Or.inr ⟨by decide +kernel, by decide +kernel, declares⟩)
  exact ⟨_, found, type, shared, visited, _, orders ["sinf", "sin"] visited⟩

end RoutineWatch.Extraction
