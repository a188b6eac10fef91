import RoutineWatch.Proofs.Ordered.Map
import RoutineWatch.Proofs.Text.ByteOrder
import RoutineWatch.TestMatrix

/-!
# What the test matrix lists

A routine is in the list of its type exactly if one of its sources changed and is not
ignored, and no list names a routine twice.

- `TestMatrix.mem_changed`: which routines are listed.
- `TestMatrix.resolve_eq_foldl`: the lists are the same as if the routines were visited one by
  one, each appending its name to the list of its type.
- `TestMatrix.resolve_exact`: both together.
-/
namespace RoutineWatch

theorem IgnoreList.ignores_eq_false {ignore : IgnoreList} {source : String} :
    ignore.ignores source = false ↔
      ∀ start ∈ ignore.prefixes, ¬ start.toList <+: source.toList := by
  unfold IgnoreList.ignores
  rw [List.any_eq_false]
  simp only [List.isPrefixOf_iff_prefix]

namespace TestMatrix

variable {registry : Registry} {ignore : IgnoreList} {changes : ChangeSet} {routine : Routine}

theorem mem_changedSources {source : String} :
    source ∈ changedSources ignore changes routine ↔
      source ∈ routine.sources ∧ ignore.ignores source = false ∧ source ∈ changes := by
  unfold changedSources
  rw [List.mem_filter]
  simp [TextSet.contains, TextSet.mem_def]

theorem mem_affected {name : String} {type : FloatType} {sources : List String} :
    (name, type, sources) ∈ affected registry ignore changes ↔
      sources ≠ [] ∧ ∃ routine, registry.get? name = some routine ∧ routine.type = type ∧
        changedSources ignore changes routine = sources := by
  unfold affected
  rw [List.mem_filter, List.mem_map]
  constructor
  · rintro ⟨⟨e, entry, same⟩, some⟩
    cases same
    exact ⟨by simpa using some, e.2, TextMap.get?_eq_some_iff.2 entry, rfl, rfl⟩
  · rintro ⟨some, routine, entry, rfl, rfl⟩
    exact ⟨⟨(name, routine), TextMap.get?_eq_some_iff.1 entry, rfl⟩, by simpa using some⟩

/-- A routine is listed by its type if one of its sources changed and counts. -/
theorem mem_changed {name : String} {type : FloatType} :
    name ∈ (resolve registry ignore changes).changed type ↔
      ∃ routine, registry.get? name = some routine ∧ routine.type = type ∧
        ∃ source ∈ routine.sources, ignore.ignores source = false ∧ source ∈ changes := by
  unfold resolve
  simp only [List.mem_map, List.mem_filter, decide_eq_true_eq]
  constructor
  · rintro ⟨⟨_, _, sources⟩, ⟨listed, rfl⟩, rfl⟩
    obtain ⟨some, routine, entry, type, rfl⟩ := mem_affected.1 listed
    obtain ⟨source, member⟩ := List.exists_mem_of_ne_nil _ some
    obtain ⟨own, counts⟩ := mem_changedSources.1 member
    exact ⟨routine, entry, type, source, own, counts⟩
  · rintro ⟨routine, entry, rfl, source, own, counts⟩
    have some := List.ne_nil_of_mem (mem_changedSources.2 ⟨own, counts⟩)
    exact ⟨(name, routine.type, changedSources ignore changes routine),
      ⟨mem_affected.2 ⟨some, routine, entry, rfl, rfl⟩, rfl⟩, rfl⟩

theorem changed_ascending (type : FloatType) :
    ((resolve registry ignore changes).changed type).Pairwise (· < ·) := by
  unfold resolve affected
  rw [List.pairwise_map]
  apply List.Pairwise.filter
  apply List.Pairwise.filter
  rw [List.pairwise_map]
  exact registry.ascending

/-- Without changes nothing is listed. -/
theorem changed_empty (type : FloatType) :
    (resolve registry ignore TextSet.empty).changed type = [] := by
  rw [List.eq_nil_iff_forall_not_mem]
  intro name listed
  obtain ⟨_, _, _, _, _, _, changed⟩ := mem_changed.1 listed
  exact TextSet.not_mem_empty changed

/-! Routine by routine -/

/-- The matrix that lists nothing. -/
def empty : TestMatrix := ⟨fun _ => []⟩

/-- The matrix with one more name at the end of the list of a type. -/
def push (matrix : TestMatrix) (type : FloatType) (name : String) : TestMatrix :=
  ⟨fun other => if type = other then matrix.changed other ++ [name] else matrix.changed other⟩

/-- The matrix after one routine was visited: its name is appended if it has sources that
changed and count. -/
def visit (ignore : IgnoreList) (changes : ChangeSet) (matrix : TestMatrix)
    (entry : String × Routine) : TestMatrix :=
  if changedSources ignore changes entry.2 = [] then matrix
  else matrix.push entry.2.type entry.1

/-- The names that one routine adds to the list of a type. -/
def added (ignore : IgnoreList) (changes : ChangeSet) (type : FloatType)
    (entry : String × Routine) : List String :=
  if changedSources ignore changes entry.2 ≠ [] ∧ entry.2.type = type then [entry.1] else []

theorem changed_visit (matrix : TestMatrix) (entry : String × Routine) (type : FloatType) :
    (visit ignore changes matrix entry).changed type =
      matrix.changed type ++ added ignore changes type entry := by
  unfold visit added
  by_cases none : changedSources ignore changes entry.2 = []
  · simp [none]
  · by_cases same : entry.2.type = type <;> simp [none, push, same]

theorem changed_foldl_visit (entries : List (String × Routine)) (matrix : TestMatrix)
    (type : FloatType) :
    (entries.foldl (visit ignore changes) matrix).changed type =
      matrix.changed type ++ entries.flatMap (added ignore changes type) := by
  induction entries generalizing matrix with
  | nil => simp
  | cons entry entries ih =>
    rw [List.foldl_cons, ih, changed_visit, List.append_assoc, List.flatMap_cons]

theorem changed_resolve (type : FloatType) :
    (resolve registry ignore changes).changed type =
      registry.toList.flatMap (added ignore changes type) := by
  unfold resolve affected
  dsimp only
  induction registry.toList with
  | nil => rfl
  | cons entry entries ih =>
    rw [List.flatMap_cons, ← ih]
    unfold added
    by_cases none : changedSources ignore changes entry.2 = []
    · simp [none]
    · by_cases same : entry.2.type = type <;> simp [none, same]

/-- Resolving is to visit the routines in the order of their names. -/
theorem resolve_eq_foldl :
    resolve registry ignore changes = registry.toList.foldl (visit ignore changes) empty := by
  have lists : (resolve registry ignore changes).changed =
      (registry.toList.foldl (visit ignore changes) empty).changed := by
    funext type
    rw [changed_resolve, changed_foldl_visit]
    rfl
  exact congrArg TestMatrix.mk lists

/-- A matrix lists exactly the routines that changed files ask for. -/
structure ListsAffected (registry : Registry) (ignore : IgnoreList) (changes : ChangeSet)
    (matrix : TestMatrix) : Prop where
  /-- It has a row for each of the four types, in their order. -/
  rows : matrix.toList =
    [(.f16, matrix.changed .f16), (.f32, matrix.changed .f32), (.f64, matrix.changed .f64),
      (.f128, matrix.changed .f128)]
  /-- A name is listed by the type of its routine, if a source of it changed that no ignored
  prefix starts. -/
  listed : ∀ type name, name ∈ matrix.changed type ↔
    ∃ routine, registry.get? name = some routine ∧ routine.type = type ∧
      ∃ source ∈ routine.sources, (∀ start ∈ ignore.prefixes, ¬ start.toList <+: source.toList) ∧
        source ∈ changes
  ascending : ∀ type, (matrix.changed type).Pairwise fun a b =>
    bytesLess (Utf8.encode a) (Utf8.encode b) = true
  apart : ∀ name a b, name ∈ matrix.changed a → name ∈ matrix.changed b → a = b
  /-- The rows are empty together exactly if no routine is affected. -/
  isEmpty : matrix.isEmpty = true ↔ ∀ type name, name ∉ matrix.changed type

/-- Resolving is exact, and it comes to what visiting one routine after the other does. -/
theorem resolve_exact (registry : Registry) (ignore : IgnoreList) (changes : ChangeSet) :
    ListsAffected registry ignore changes (resolve registry ignore changes) ∧
      resolve registry ignore changes =
        registry.toList.foldl (visit ignore changes) empty := by
  refine ⟨⟨rfl, ?_, ?_, ?_, ?_⟩, resolve_eq_foldl⟩
  · intro type name
    simp only [mem_changed, IgnoreList.ignores_eq_false]
  · intro type
    exact (changed_ascending type).imp Utf8.bytesLess_encode
  · intro name a b listedA listedB
    obtain ⟨routine, found, rfl, _⟩ := mem_changed.1 listedA
    obtain ⟨other, foundOther, rfl, _⟩ := mem_changed.1 listedB
    rw [Option.some.inj (found.symm.trans foundOther)]
  · simp only [isEmpty, toList, List.all_map, List.all_eq_true, Function.comp_apply,
      List.isEmpty_iff, List.eq_nil_iff_forall_not_mem]
    constructor
    · intro none type
      exact none type (by cases type <;> decide)
    · intro none type _
      exact none type

/-- Of two routines that changed, one only has an ignored source. -/
example :
    (resolve
      ((TextMap.empty.insert "sin" ⟨TextSet.ofList ["src/sin.rs", "doc/sin.md"], .f64⟩).insert
        "sinf" ⟨TextSet.ofList ["doc/sin.md"], .f32⟩)
      ⟨["doc/"]⟩ (TextSet.ofList ["doc/sin.md", "src/sin.rs"])).toList =
    [(.f16, []), (.f32, []), (.f64, ["sin"]), (.f128, [])] := by
  decide +kernel

end TestMatrix

end RoutineWatch
