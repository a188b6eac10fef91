import Mathlib.Data.Option.Basic
import RoutineWatch.Proofs.Extraction.Fields
import RoutineWatch.Proofs.Extraction.Registry
import RoutineWatch.Proofs.Text.ByteOrder

/-!
# The public functions of an index

A name is one of them exactly if a public re-export in one of the root modules leads to a
function item of that name. Documents of any shape are allowed: what is missing or of another
shape answers no question, so it adds no name, and it keeps none from being found.

- `Extraction.Exports`: what it is to be exported.
- `Extraction.publicFunctions_exact`: the public functions, and which entries do not matter.
-/
namespace RoutineWatch.Extraction

/-- An item is a public re-export of an id from one of the root modules. -/
structure Reexports (rule : ExtractionRule) (item : DocItem) (id : String) : Prop where
  visibility : item.value.at? ["visibility"] = some (.string "public")
  file : ∃ file ∈ rule.reexportModules, item.value.at? ["span", "filename"] = some (.string file)
  target : ∃ value, item.value.at? ["inner", "use", "id"] = some value ∧ value.StandsFor id

/-- An item is a function of this name. -/
structure IsFunctionNamed (item : DocItem) (name : String) : Prop where
  function : ∃ value, item.value.at? ["inner", "function"] = some value
  name : item.value.at? ["name"] = some (.string name)

/-- An entry of the index re-exports the id of a function of this name. -/
def Exports (rule : ExtractionRule) (index : DocIndex) (name : String) : Prop :=
  ∃ table key item id target, index.root.at? ["index"] = some (.object table) ∧
    (key, item) ∈ table ∧ Reexports rule ⟨item⟩ id ∧
    index.root.at? ["index", id] = some target ∧ IsFunctionNamed ⟨target⟩ name

/-- An item that can have a part in an export: a re-export or a named function. -/
def TakesPart (rule : ExtractionRule) (item : DocItem) : Prop :=
  (∃ id, Reexports rule item id) ∨ ∃ name, IsFunctionNamed item name

variable {rule : ExtractionRule} {index other : DocIndex}

theorem reexports_iff {item : DocItem} {id : String} :
    Reexports rule item id ↔
      item.isPublic = true ∧ (∃ file, item.file? = some file ∧ file ∈ rule.reexportModules) ∧
        item.useTarget? = some id := by
  rw [DocItem.isPublic_iff, DocItem.useTarget?_eq_some_iff]
  simp only [DocItem.file?_eq_some_iff]
  constructor
  · rintro ⟨visibility, ⟨file, root, declared⟩, target⟩
    exact ⟨visibility, ⟨file, declared, root⟩, target⟩
  · rintro ⟨visibility, ⟨file, declared, root⟩, target⟩
    exact ⟨visibility, ⟨file, root, declared⟩, target⟩

theorem isFunctionNamed_iff {item : DocItem} {name : String} :
    IsFunctionNamed item name ↔ item.isFunction = true ∧ item.name? = some name := by
  rw [DocItem.isFunction_iff, DocItem.name?_eq_some_iff]
  exact ⟨fun named => ⟨named.function, named.name⟩, fun ⟨function, name⟩ => ⟨function, name⟩⟩

/-- An item exports what its id leads to, if that is a named function. -/
theorem exported?_eq_some_iff {item : DocItem} {name : String} :
    exported? rule index item = some name ↔
      ∃ id target, Reexports rule item id ∧ index.get? id = some target ∧
        IsFunctionNamed target name := by
  simp only [reexports_iff, isFunctionNamed_iff]
  unfold exported?
  simp only [Option.bind_eq_bind, Option.bind_eq_some_iff, Option.guard_eq_some']
  constructor
  · rintro ⟨_, isPublic, file, declared, _, root, id, leads, target, found, _, function, named⟩
    exact ⟨id, target, ⟨isPublic, ⟨file, declared, List.contains_iff_mem.1 root⟩, leads⟩, found,
      function, named⟩
  · rintro ⟨id, target, ⟨isPublic, ⟨file, declared, root⟩, leads⟩, found, function, named⟩
    exact ⟨(), isPublic, file, declared, (), List.contains_iff_mem.2 root, id, leads, target, found,
      (), function, named⟩

theorem mem_publicFunctions_iff {name : String} :
    name ∈ publicFunctions rule index ↔ Exports rule index name := by
  unfold publicFunctions Exports
  rw [TextSet.mem_ofList, List.mem_filterMap]
  simp only [exported?_eq_some_iff, DocIndex.mem_items_iff, DocIndex.mem_entries_iff,
    DocIndex.get?_eq_some_iff]
  constructor
  · rintro ⟨⟨item⟩, ⟨key, table, entries, entry⟩, id, ⟨target⟩, reexports, found, named⟩
    exact ⟨table, key, item, id, target, entries, entry, reexports, found, named⟩
  · rintro ⟨table, key, item, id, target, entries, entry, reexports, found, named⟩
    exact ⟨⟨item⟩, ⟨key, table, entries, entry⟩, id, ⟨target⟩, reexports, found, named⟩

/-- In a document that was read, both items of an export are looked up in one table. -/
theorem exports_iff {table : TextMap Json}
    (entries : index.root.at? ["index"] = some (.object table.toList)) {name : String} :
    Exports rule index name ↔
      ∃ key item id target, table.get? key = some item ∧ Reexports rule ⟨item⟩ id ∧
        table.get? id = some target ∧ IsFunctionNamed ⟨target⟩ name := by
  have lookup : ∀ id, index.root.at? ["index", id] = table.get? id := by
    intro id
    have field : index.root.get? "index" = some (.object table.toList) := by
      simpa [Json.at?] using entries
    have found : index.root.at? ["index", id] = (Json.object table.toList).get? id := by
      simp [Json.at?, field]
    exact found
  unfold Exports
  simp only [lookup, entries, Option.some.injEq, Json.object.injEq, TextMap.get?_eq_some_iff]
  constructor
  · rintro ⟨_, key, item, id, target, rfl, entry, rest⟩
    exact ⟨key, item, id, target, entry, rest⟩
  · rintro ⟨key, item, id, target, entry, rest⟩
    exact ⟨_, key, item, id, target, rfl, entry, rest⟩

/-- What is exported stays so as long as the items stay that have a part in an export. -/
theorem Exports.of_kept {table others : TextMap Json}
    (entries : index.root.at? ["index"] = some (.object table.toList))
    (otherEntries : other.root.at? ["index"] = some (.object others.toList))
    (kept : ∀ id value, TakesPart rule ⟨value⟩ → table.get? id = some value →
      others.get? id = some value) {name : String}
    (exported : Exports rule index name) : Exports rule other name := by
  rw [exports_iff entries] at exported
  obtain ⟨key, item, id, target, entry, reexports, found, named⟩ := exported
  rw [exports_iff otherEntries]
  exact ⟨key, item, id, target, kept key item (Or.inl ⟨id, reexports⟩) entry, reexports,
    kept id target (Or.inr ⟨name, named⟩) found, named⟩

/-- The public functions of a document of any shape, in ascending order, are exactly the names
of the functions that public re-exports of root modules lead to. Entries that are neither such
a re-export nor a named function may be put in, taken out or changed. -/
theorem publicFunctions_exact (rule : ExtractionRule) (index : DocIndex) :
    ((publicFunctions rule index).toList.Pairwise fun a b =>
      bytesLess (Utf8.encode a) (Utf8.encode b) = true) ∧
    (∀ name, name ∈ publicFunctions rule index ↔ Exports rule index name) ∧
    ∀ (other : DocIndex) (table others : TextMap Json),
      index.root.at? ["index"] = some (.object table.toList) →
      other.root.at? ["index"] = some (.object others.toList) →
      (∀ id value, TakesPart rule ⟨value⟩ →
        (table.get? id = some value ↔ others.get? id = some value)) →
      publicFunctions rule index = publicFunctions rule other := by
  refine ⟨?_, fun name => mem_publicFunctions_iff, ?_⟩
  · exact (publicFunctions rule index).ascending.imp Utf8.bytesLess_encode
  · intro other table others entries otherEntries same
    refine TextSet.ext fun name => ?_
    rw [mem_publicFunctions_iff, mem_publicFunctions_iff]
    exact ⟨Exports.of_kept entries otherEntries fun id value part => (same id value part).1,
      Exports.of_kept otherEntries entries fun id value part => (same id value part).2⟩

/-- The items of `sampleIndex` by id. -/
def sampleTable : TextMap Json :=
  ⟨[("1", sampleFunction "sin" "src/generic/sin.rs"), ("2", sampleFunction "sinf" "src/sinf.rs"),
    ("3", sampleUse "1"), ("4", sampleUse "2")], by decide +kernel⟩

/-- The same items among a number, a function without a name and a re-export without a target. -/
def crowdedTable : TextMap Json :=
  ⟨[("1", sampleFunction "sin" "src/generic/sin.rs"), ("11", .nat 7),
    ("2", sampleFunction "sinf" "src/sinf.rs"),
    ("21", .object [("inner", .object [("function", .null)]), ("name", .null)]),
    ("3", sampleUse "1"), ("31", .object [("visibility", .string "public")]),
    ("4", sampleUse "2")], by decide +kernel⟩

theorem crowdedTable_same (id : String) (value : Json) (part : TakesPart sampleRule ⟨value⟩) :
    sampleTable.get? id = some value ↔ crowdedTable.get? id = some value := by
  have number : value ≠ .nat 7 := by
    rintro rfl
    rcases part with ⟨_, reexports⟩ | ⟨_, named⟩
    · exact absurd reexports.visibility (by simp [Json.at?, Json.get?, Json.nat])
    · exact absurd named.name (by simp [Json.at?, Json.get?, Json.nat])
  have nameless : value ≠ .object [("inner", .object [("function", .null)]), ("name", .null)] := by
    rintro rfl
    rcases part with ⟨_, reexports⟩ | ⟨_, named⟩
    · exact absurd reexports.visibility (by simp [Json.at?, Json.get?])
    · exact absurd named.name (by simp [Json.at?, Json.get?])
  have aimless : value ≠ .object [("visibility", .string "public")] := by
    rintro rfl
    rcases part with ⟨_, reexports⟩ | ⟨_, named⟩
    · obtain ⟨_, target, _⟩ := reexports.target
      exact absurd target (by simp [Json.at?, Json.get?])
    · exact absurd named.name (by simp [Json.at?, Json.get?])
  rw [TextMap.get?_eq_some_iff, TextMap.get?_eq_some_iff]
  simp [sampleTable, crowdedTable, number, nameless, aimless]

theorem crowdedTable_publicFunctions :
    sampleTable.size < crowdedTable.size ∧
      (∀ id value, TakesPart sampleRule ⟨value⟩ →
        (sampleTable.get? id = some value ↔ crowdedTable.get? id = some value)) ∧
      publicFunctions sampleRule sampleIndex =
        publicFunctions sampleRule ⟨.object [("index", .object crowdedTable.toList)]⟩ ∧
      (publicFunctions sampleRule sampleIndex).toList = ["sin", "sinf"] := by
  obtain ⟨_, _, same⟩ := publicFunctions_exact sampleRule sampleIndex
  exact ⟨by decide, crowdedTable_same, same _ _ crowdedTable rfl rfl crowdedTable_same,
    by decide +kernel⟩

end RoutineWatch.Extraction
