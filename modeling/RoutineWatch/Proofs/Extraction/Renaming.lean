import Mathlib.Logic.Function.Basic
import RoutineWatch.Proofs.Extraction.Fields
import RoutineWatch.Proofs.Extraction.Registry

/-!
# Indexes that differ in their ids only

Of an item five fields are read, and ids serve to find items, so the registry does not change
when all ids are renamed apart, when an id is written as a number instead of a text, or when
anything else in an item changes. Neither does it depend on the order of the architectures'
sources or on repeated ones.

- `DocIndex.Renames`: two indexes whose ids differ by a renaming.
- `Extraction.publicFunctions_renamed`: they have the same public functions.
- `Extraction.extraction_independent`: and the same registry.
-/
namespace RoutineWatch

namespace DocItem

/-- Two items of indexes whose ids differ by a renaming: they are the same in the fields that
matter to an extraction. -/
structure Agrees (rename : String → String) (item other : DocItem) : Prop where
  visibility : item.value.at? ["visibility"] = some (.string "public") ↔
    other.value.at? ["visibility"] = some (.string "public")
  file : ∀ text, item.value.at? ["span", "filename"] = some (.string text) ↔
    other.value.at? ["span", "filename"] = some (.string text)
  name : ∀ text, item.value.at? ["name"] = some (.string text) ↔
    other.value.at? ["name"] = some (.string text)
  function : (∃ value, item.value.at? ["inner", "function"] = some value) ↔
    ∃ value, other.value.at? ["inner", "function"] = some value
  target : ∀ id, other.PointsTo id ↔ ∃ old, item.PointsTo old ∧ rename old = id

variable {rename : String → String} {item other : DocItem}

theorem Agrees.isPublic_eq (agrees : Agrees rename item other) :
    other.isPublic = item.isPublic := by
  rw [Bool.eq_iff_iff, isPublic_iff, isPublic_iff, agrees.visibility]

theorem Agrees.isFunction_eq (agrees : Agrees rename item other) :
    other.isFunction = item.isFunction := by
  rw [Bool.eq_iff_iff, isFunction_iff, isFunction_iff, agrees.function]

theorem Agrees.file?_eq (agrees : Agrees rename item other) : other.file? = item.file? := by
  apply Option.ext
  intro text
  rw [file?_eq_some_iff, file?_eq_some_iff, agrees.file]

theorem Agrees.name?_eq (agrees : Agrees rename item other) : other.name? = item.name? := by
  apply Option.ext
  intro text
  rw [name?_eq_some_iff, name?_eq_some_iff, agrees.name]

theorem Agrees.useTarget?_eq (agrees : Agrees rename item other) :
    other.useTarget? = item.useTarget?.map rename := by
  apply Option.ext
  intro id
  rw [useTarget?_eq_some_iff, agrees.target, Option.map_eq_some_iff]
  simp only [useTarget?_eq_some_iff]

end DocItem

namespace DocIndex

/-- The ids of the second index are those of the first one, renamed, and items of
corresponding ids agree. -/
structure Renames (rename : String → String) (index other : DocIndex) : Prop where
  ids : ∀ id, (∃ value, (id, value) ∈ other.entries) ↔
    ∃ old, (∃ value, (old, value) ∈ index.entries) ∧ rename old = id
  items : ∀ id value renamed, (id, value) ∈ index.entries → (rename id, renamed) ∈ other.entries →
    DocItem.Agrees rename ⟨value⟩ ⟨renamed⟩

variable {rename : String → String} {index other : DocIndex}

/-- The look-up of an id corresponds to that of the renamed one; a renamed id that is in no
entry is not taken for another one. -/
theorem Renames.get? (renames : Renames rename index other)
    (injective : Function.Injective rename) (id : String) :
    Option.Rel (DocItem.Agrees rename) (index.get? id) (other.get? (rename id)) := by
  have known := renames.ids (rename id)
  cases left : index.get? id with
  | some item =>
    have entry := entry_of_get? left
    obtain ⟨_, renamed⟩ := known.2 ⟨id, ⟨_, entry⟩, rfl⟩
    obtain ⟨found, right⟩ := get?_of_entry renamed
    rw [right]
    exact .some (renames.items id _ _ entry (entry_of_get? right))
  | none =>
    cases right : other.get? (rename id) with
    | none => exact .none
    | some found =>
      obtain ⟨old, ⟨_, entry⟩, same⟩ := known.1 ⟨_, entry_of_get? right⟩
      obtain ⟨item, present⟩ := get?_of_entry entry
      rw [injective same, left] at present
      cases present

/-- What can be told from the fields that matter is told of the items of both indexes. -/
theorem Renames.exists_item_iff (renames : Renames rename index other)
    {told told' : DocItem → Prop}
    (same : ∀ item renamed, DocItem.Agrees rename item renamed → (told item ↔ told' renamed)) :
    (∃ item ∈ index.items, told item) ↔ ∃ item ∈ other.items, told' item := by
  constructor
  · rintro ⟨item, member, holds⟩
    obtain ⟨id, entry⟩ := mem_items_iff.1 member
    obtain ⟨value, renamed⟩ := (renames.ids (rename id)).2 ⟨id, ⟨_, entry⟩, rfl⟩
    exact ⟨⟨value⟩, mem_items_iff.2 ⟨_, renamed⟩, (same _ _ (renames.items _ _ _ entry renamed)).1 holds⟩
  · rintro ⟨item, member, holds⟩
    obtain ⟨id, renamed⟩ := mem_items_iff.1 member
    obtain ⟨old, ⟨value, entry⟩, rfl⟩ := (renames.ids id).1 ⟨_, renamed⟩
    exact ⟨⟨value⟩, mem_items_iff.2 ⟨_, entry⟩, (same _ _ (renames.items _ _ _ entry renamed)).2 holds⟩

end DocIndex

namespace Extraction

section
variable {rename : String → String} {index other : DocIndex}

theorem exported?_eq (rule : ExtractionRule) (renames : DocIndex.Renames rename index other)
    (injective : Function.Injective rename) {item renamed : DocItem}
    (agrees : DocItem.Agrees rename item renamed) :
    exported? rule other renamed = exported? rule index item := by
  unfold exported?
  rw [agrees.isPublic_eq, agrees.file?_eq, agrees.useTarget?_eq]
  cases item.useTarget? with
  | none => rfl
  | some id =>
    have found := renames.get? injective id
    simp only [Option.map_some, bind, Option.bind]
    generalize index.get? id = left at found ⊢
    generalize other.get? (rename id) = right at found ⊢
    cases found with
    | none => rfl
    | some same =>
      dsimp only
      rw [same.isFunction_eq, same.name?_eq]

theorem publicFunctions_renamed (rule : ExtractionRule)
    (renames : DocIndex.Renames rename index other) (injective : Function.Injective rename) :
    publicFunctions rule index = publicFunctions rule other := by
  refine TextSet.ext fun name => ?_
  simp only [publicFunctions, TextSet.mem_ofList, List.mem_filterMap]
  exact renames.exists_item_iff fun item renamed agrees => by
    rw [exported?_eq rule renames injective agrees]

theorem declares_iff {item renamed : DocItem} (agrees : DocItem.Agrees rename item renamed)
    (name path : String) : Declares item name path ↔ Declares renamed name path := by
  unfold Declares
  rw [agrees.isFunction_eq, agrees.name?_eq, agrees.file?_eq]

/-- A definition is found in either index, and in sources of any order. -/
theorem defines_iff (renames : DocIndex.Renames rename index other) {files others : List SourceFile}
    (same : ∀ file, file ∈ files ↔ file ∈ others) (name path : String) :
    Defines index files name path ↔ Defines other others name path := by
  unfold Defines
  simp only [same]
  rw [renames.exists_item_iff fun _ _ agrees => declares_iff agrees name path]

end

/-- A registry depends on the public functions and on what defines what. -/
theorem extract_congr {rule : ExtractionRule} {index other : DocIndex}
    {files others : List SourceFile}
    (functions : publicFunctions rule index = publicFunctions rule other)
    (defines : ∀ name path, Defines index files name path ↔ Defines other others name path) :
    extract rule index files = extract rule other others := by
  have scans : scanned rule index files = scanned rule other others := by
    refine SourceTable.ext ?_ fun name path => ?_
    · rw [keys_scanned, keys_scanned, functions]
    · rw [lists_scanned, lists_scanned, functions, defines]
  have left : extract rule index files = registryOf (propagate rule (scanned rule index files)) := rfl
  have right : extract rule other others =
    registryOf (propagate rule (scanned rule other others)) := rfl
  rw [left, right, scans]

/-- The registry depends neither on the order of the sources nor on repeated ones, and it is the
same for an index in which all ids are renamed apart and items agree in the fields that are
read. -/
theorem extraction_independent (rule : ExtractionRule) (index : DocIndex)
    (files others : List SourceFile) (same : ∀ file, file ∈ files ↔ file ∈ others) :
    extract rule index files = extract rule index others ∧
      ∀ rename other, Function.Injective rename → DocIndex.Renames rename index other →
        publicFunctions rule index = publicFunctions rule other ∧
          extract rule index files = extract rule other others := by
  constructor
  · refine extract_congr rfl fun name path => ?_
    unfold Defines
    simp only [same]
  · intro rename other injective renames
    have functions := publicFunctions_renamed rule renames injective
    exact ⟨functions, extract_congr functions (defines_iff renames same)⟩

/-- The index of `sampleIndex` with a digit ahead of every id, with one id as a number, and with
a field that is not read. -/
def renumberedIndex : DocIndex :=
  ⟨.object [("index", .object [
    ("41", .object [("docs", .string "The sine."), ("inner", .object [("function", .null)]),
      ("name", .string "sin"), ("span", .object [("filename", .string "src/generic/sin.rs")])]),
    ("42", sampleFunction "sinf" "src/sinf.rs"),
    ("43", .object [("inner", .object [("use", .object [("id", .nat 41)])]),
      ("span", .object [("filename", .string "src/math.rs")]), ("visibility", .string "public")]),
    ("44", sampleUse "42")])]⟩

theorem renumberedIndex_renames : DocIndex.Renames ("4" ++ ·) sampleIndex renumberedIndex where
  ids := by
    intro id
    simp [DocIndex.entries, sampleIndex, renumberedIndex, Json.get?, exists_or, eq_comm]
  items := by
    intro id value renamed entry other
    have digits : JsonNumber.render (.integer 41) = "4" ++ "1" := by decide +kernel
    simp only [DocIndex.entries, sampleIndex, renumberedIndex, Json.get?] at entry other
    simp at entry other
    rcases entry with ⟨rfl, rfl⟩ | ⟨rfl, rfl⟩ | ⟨rfl, rfl⟩ | ⟨rfl, rfl⟩ <;> simp at other <;>
      subst renamed <;> constructor <;>
      simp [DocItem.PointsTo, ← DocItem.idText?_eq_some_iff, DocItem.idText?, Json.at?, Json.get?,
        sampleFunction, sampleUse, Json.nat, digits]

theorem renumberedIndex_extract :
    ∃ files others : List SourceFile, (∀ file, file ∈ files ↔ file ∈ others) ∧ files ≠ others ∧
      extract sampleRule sampleIndex files = extract sampleRule sampleIndex others ∧
      Function.Injective ("4" ++ · : String → String) ∧
      DocIndex.Renames ("4" ++ ·) sampleIndex renumberedIndex ∧
      (publicFunctions sampleRule renumberedIndex).toList = ["sin", "sinf"] ∧
      publicFunctions sampleRule sampleIndex = publicFunctions sampleRule renumberedIndex ∧
      extract sampleRule sampleIndex files = extract sampleRule renumberedIndex others := by
  let first : SourceFile := ⟨"src/math/arch/x86.rs", "fn sinf"⟩
  let second : SourceFile := ⟨"src/math/arch/arm.rs", "fn sin"⟩
  have same : ∀ file, file ∈ [first, second] ↔ file ∈ [second, first, second] := by
    intro file
    simp only [List.mem_cons, List.not_mem_nil, or_false]
    tauto
  have injective : Function.Injective ("4" ++ · : String → String) := by
    intro a b equal
    exact String.append_right_inj "4" |>.1 equal
  obtain ⟨reordered, renumbered⟩ :=
    extraction_independent sampleRule sampleIndex [first, second] [second, first, second] same
  obtain ⟨functions, registries⟩ := renumbered _ _ injective renumberedIndex_renames
  exact ⟨_, _, same, by simp, reordered, injective, renumberedIndex_renames, by decide +kernel,
    functions, registries⟩

end Extraction

end RoutineWatch
