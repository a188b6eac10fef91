import RoutineWatch.Proofs.Extraction.Registry
import RoutineWatch.Proofs.Matrix.Resolve
import RoutineWatch.Proofs.Registry.Stored
import RoutineWatch.Proofs.RoutineName.Decomposition

/-!
# Changes to shared files

A name that is its own base is of the unmarked type, and handing shared sources on leaves its
own sources as they are. So what is shared of it is a source of each of its variants, before
the registry is stored and after it is read back.

- `Extraction.lists_propagate_of_shared`: what a base shares reaches its variants.
- `Extraction.shared_change_reaches_variants`: so does a change to it, through the stored form.
-/
namespace RoutineWatch

namespace Extraction

section
variable {rule : ExtractionRule} {table : SourceTable} {name path : String}

/-- A name that is its own base gets nothing that it does not have. -/
theorem lists_propagate_of_own_base (own : RoutineName.base name = name) :
    (propagate rule table).Lists name path ↔ table.Lists name path := by
  rw [lists_propagate, own]
  constructor
  · rintro (before | ⟨_, before, _⟩)
    · exact before
    · exact before
  · exact Or.inl

/-- What a base shares reaches its variants. -/
theorem lists_propagate_of_shared (known : name ∈ table.keys)
    (own : RoutineName.base (RoutineName.base name) = RoutineName.base name)
    (listed : (propagate rule table).Lists (RoutineName.base name) path)
    (shared : rule.genericMarker.toList <:+: path.toList) :
    (propagate rule table).Lists name path :=
  (lists_propagate rule table name path).2
    (Or.inr ⟨known, (lists_propagate_of_own_base own).1 listed, shared⟩)

end

variable {rule : ExtractionRule} {index : DocIndex} {files : List SourceFile}

theorem get?_extract {name : String} {routine : Routine}
    (found : (extract rule index files).get? name = some routine) :
    routine.type = RoutineName.type name ∧ ∀ path, path ∈ routine.sources ↔
      (propagate rule (scanned rule index files)).Lists name path :=
  get?_registryOf found

theorem mem_keys_scanned {name : String} {routine : Routine}
    (found : (extract rule index files).get? name = some routine) :
    name ∈ (scanned rule index files).keys := by
  have whole : extract rule index files =
      registryOf (propagate rule (scanned rule index files)) := rfl
  rw [← keys_propagate rule, ← keys_registryOf, ← whole]
  exact TextMap.mem_keys_iff.2 ⟨routine, found⟩

/-- A path that defines a public function is a source of it. -/
theorem mem_sources_of_defines {name path : String} (known : name ∈ publicFunctions rule index)
    (defines : Defines index files name path) :
    ∃ routine, (extract rule index files).get? name = some routine ∧ path ∈ routine.sources := by
  have whole : extract rule index files =
      registryOf (propagate rule (scanned rule index files)) := rfl
  have key : name ∈ (extract rule index files).keys := by
    rw [whole, keys_registryOf, keys_propagate, keys_scanned]
    exact known
  obtain ⟨routine, found⟩ := TextMap.mem_keys_iff.1 key
  refine ⟨routine, found, ((get?_extract found).2 path).2 ?_⟩
  exact (lists_propagate rule _ name path).2
    (Or.inl ((lists_scanned rule index files name path).2 ⟨known, defines⟩))

/-- A change to a shared source of a base reaches the base and every variant of it, through
the stored form of the registry. -/
theorem shared_change_reaches_variants {name : String} {variant whole : Routine}
    (known : (extract rule index files).get? name = some variant)
    (baseKnown : (extract rule index files).get? (RoutineName.base name) = some whole)
    (own : RoutineName.base (RoutineName.base name) = RoutineName.base name)
    (nameStored : name ≠ Registry.commentKey)
    (baseStored : RoutineName.base name ≠ Registry.commentKey)
    {source : String} (listed : source ∈ whole.sources)
    (shared : rule.genericMarker.toList <:+: source.toList)
    {ignore : IgnoreList} (counts : ∀ start ∈ ignore.prefixes, ¬ start.toList <+: source.toList)
    {changes : ChangeSet} (changed : source ∈ changes) :
    ∃ read, Registry.parse (extract rule index files).render = .ok (read, []) ∧
      name ∈ (TestMatrix.resolve read ignore changes).changed (RoutineName.type name) ∧
      RoutineName.base name ∈ (TestMatrix.resolve read ignore changes).changed .f64 := by
  obtain ⟨variantType, variantSources⟩ := get?_extract known
  obtain ⟨wholeType, wholeSources⟩ := get?_extract baseKnown
  rw [RoutineName.type_of_base_eq own] at wholeType
  have reaches : source ∈ variant.sources :=
    (variantSources source).2 (lists_propagate_of_shared (mem_keys_scanned known) own
      ((wholeSources source).1 listed) shared)
  have kept : ignore.ignores source = false := IgnoreList.ignores_eq_false.2 counts
  refine ⟨(extract rule index files).erase Registry.commentKey, Registry.parse_render _, ?_, ?_⟩
  · refine TestMatrix.mem_changed.2 ⟨variant, ?_, variantType, source, reaches, kept, changed⟩
    rw [TextMap.get?_erase, if_neg nameStored, known]
  · refine TestMatrix.mem_changed.2 ⟨whole, ?_, wholeType, source, listed, kept, changed⟩
    rw [TextMap.get?_erase, if_neg baseStored, baseKnown]

/-- The file that the two functions share is changed, next to a file that is ignored. -/
theorem sampleIndex_shared_change :
    ∃ read, Registry.parse (extract sampleRule sampleIndex []).render = .ok (read, []) ∧
      "sinf" ∈ (TestMatrix.resolve read ⟨["src/support/"]⟩
        (TextSet.ofList ["src/generic/sin.rs", "src/support/mod.rs"])).changed .f32 ∧
      "sin" ∈ (TestMatrix.resolve read ⟨["src/support/"]⟩
        (TextSet.ofList ["src/generic/sin.rs", "src/support/mod.rs"])).changed .f64 := by
  have base : RoutineName.base "sinf" = "sin" := by decide +kernel
  have type : RoutineName.type "sinf" = .f32 := by decide +kernel
  have known : (extract sampleRule sampleIndex []).get? "sinf" =
      some ⟨TextSet.ofList ["src/sinf.rs", "src/generic/sin.rs"], .f32⟩ := by
    decide +kernel
  have baseKnown : (extract sampleRule sampleIndex []).get? (RoutineName.base "sinf") =
      some ⟨TextSet.ofList ["src/generic/sin.rs"], .f64⟩ := by
    decide +kernel
  have own : RoutineName.base (RoutineName.base "sinf") = RoutineName.base "sinf" := by
    decide +kernel
  have listed : "src/generic/sin.rs" ∈ TextSet.ofList ["src/generic/sin.rs"] := by decide +kernel
  have shared : sampleRule.genericMarker.toList <:+: "src/generic/sin.rs".toList := by
    decide +kernel
  have counts : ∀ start ∈ (⟨["src/support/"]⟩ : IgnoreList).prefixes,
      ¬ start.toList <+: "src/generic/sin.rs".toList := by
    decide +kernel
  have changed : "src/generic/sin.rs" ∈
      TextSet.ofList ["src/generic/sin.rs", "src/support/mod.rs"] := by
    decide +kernel
  have reached := shared_change_reaches_variants known baseKnown own (by decide +kernel)
    (by decide +kernel) listed shared counts changed
  rwa [base, type] at reached

end Extraction

end RoutineWatch
