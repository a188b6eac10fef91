import RoutineWatch.Proofs.Json.OneLine
import RoutineWatch.Proofs.Matrix.Resolve

/-!
# The line that a workflow reads

Names come from files that anyone can change, so it matters that no name can end the line and
that the value of the line is what was written, whatever the names are. The names of a row
can be told apart again if none is empty or has a comma.

- `TestMatrix.isPlain_line`: the line has no control character.
- `TestMatrix.workflowOutput_decodes`: what it decodes to.
-/
namespace RoutineWatch.TestMatrix

/-- The values of the four rows. -/
def rows (lists : FloatType → List String) : List Json :=
  [FloatType.f16, .f32, .f64, .f128].map fun type =>
    .object [("ty", .string type.name), ("changed", .string (String.intercalate "," (lists type)))]

/-- The line that lists names by type. -/
def line (lists : FloatType → List String) : String :=
  "matrix=" ++ (Json.object [("matrix", .array (rows lists))]).compact

theorem workflowOutput_eq (matrix : TestMatrix) : matrix.workflowOutput = line matrix.changed :=
  rfl

/-- Whatever the names are, the line has no control character. -/
theorem isPlain_line (lists : FloatType → List String) : Json.IsPlain (line lists).toList := by
  have texts : (Json.object [("matrix", .array (rows lists))]).HasNaturals := by
    simp [rows, Json.HasNaturals, Json.ItemsHaveNaturals, Json.MembersHaveNaturals]
  have label : Json.IsPlain "matrix=".toList := by decide
  rw [line, Json.compact, String.toList_append]
  refine Json.isPlain_append label ?_
  rw [String.toList_ofList]
  exact Json.isPlain_compactChars _ texts

theorem newline_not_mem_line (lists : FloatType → List String) : '\n' ∉ (line lists).toList := by
  intro member
  have control := isPlain_line lists '\n' member
  exact absurd control (by decide)

/-! Reading the line -/

theorem hasNaturals_toJson (matrix : TestMatrix) : matrix.toJson.HasNaturals := by
  simp [toJson, toList, rowJson, FloatType.all, Json.HasNaturals, Json.ItemsHaveNaturals,
    Json.MembersHaveNaturals]

theorem height_toJson (matrix : TestMatrix) : matrix.toJson.height < Json.depthLimit := by
  simp [toJson, toList, rowJson, FloatType.all, Json.height, Json.itemsHeight,
    Json.membersHeight, Json.depthLimit]

/-- A row as a reader finds it in the text, with its members in the order of the text. -/
def rowDocument (matrix : TestMatrix) (type : FloatType) : Json.Document :=
  .object [(some "ty", .string (some type.name)),
    (some "changed", .string (some (String.intercalate "," (matrix.changed type))))] true

/-- The value of a row. A reader lists the members by key. -/
def rowValue (matrix : TestMatrix) (type : FloatType) : Json :=
  .object [("changed", .string (String.intercalate "," (matrix.changed type))),
    ("ty", .string type.name)]

theorem document_toJson (matrix : TestMatrix) :
    matrix.toJson.document =
      .object [(some "matrix",
        .array ([FloatType.f16, .f32, .f64, .f128].map matrix.rowDocument) true)] true := rfl

theorem sorted_rowJson (matrix : TestMatrix) (type : FloatType) :
    (rowJson (type, matrix.changed type)).sorted = matrix.rowValue type := by
  have first : "changed" < "ty" := by decide
  simp [rowJson, rowValue, Json.sorted, Json.sortedMembers, Json.ofMembers, Json.place, first]

theorem sorted_toJson (matrix : TestMatrix) :
    matrix.toJson.sorted =
      .object [("matrix", .array ([FloatType.f16, .f32, .f64, .f128].map matrix.rowValue))] := by
  simp [toJson, toList, FloatType.all, Json.sorted, Json.sortedMembers, Json.sortedItems,
    Json.ofMembers, Json.place, sorted_rowJson]

/-- The names that a text lists with commas between them. -/
def namesOf (text : String) : List String :=
  if text = "" then [] else (text.toList.splitOn ',').map String.ofList

theorem namesOf_intercalate {names : List String}
    (plain : ∀ name ∈ names, name ≠ "" ∧ ',' ∉ name.toList) :
    namesOf (String.intercalate "," names) = names := by
  unfold namesOf
  have letters : (String.intercalate "," names).toList =
      List.intercalate [','] (names.map String.toList) := String.toList_intercalate
  cases names with
  | nil => rfl
  | cons name names =>
    have filled : String.intercalate "," (name :: names) ≠ "" := by
      cases names with
      | nil => simpa using (plain name List.mem_cons_self).1
      | cons next names => simp
    have apart : ∀ letters ∈ (name :: names).map String.toList, ',' ∉ letters := by
      intro letters member
      obtain ⟨listed, place, rfl⟩ := List.mem_map.1 member
      exact (plain listed place).2
    rw [if_neg filled, letters, List.splitOn_intercalate ',' apart (by simp), List.map_map]
    simp [Function.comp_def]

/-- Listed names are names of the registry. -/
theorem mem_keys_of_mem_changed {registry : Registry} {ignore : IgnoreList} {changes : ChangeSet}
    {type : FloatType} {name : String}
    (listed : name ∈ (resolve registry ignore changes).changed type) : name ∈ registry.keys := by
  obtain ⟨routine, found, _⟩ := mem_changed.1 listed
  exact TextMap.mem_keys_iff.2 ⟨routine, found⟩

/-- Whatever the names are, the line has no control character, and behind its label stands
one object whose four rows give the types in their order, each with its names between commas.
These are the names of the lists, if no name of the registry is empty or has a comma. -/
theorem workflowOutput_decodes (registry : Registry) (ignore : IgnoreList) (changes : ChangeSet) :
    let matrix := resolve registry ignore changes
    (∀ c ∈ matrix.workflowOutput.toList, 0x20 ≤ c.toNat) ∧
    (∃ text, matrix.workflowOutput = "matrix=" ++ text ∧
      Json.readFirst text.toList =
        (.object [(some "matrix",
          .array ([FloatType.f16, .f32, .f64, .f128].map matrix.rowDocument) true)] true,
          some []) ∧
      Json.parse text = .ok (.object [("matrix",
        .array ([FloatType.f16, .f32, .f64, .f128].map matrix.rowValue))])) ∧
    ((∀ name ∈ registry.keys, name ≠ "" ∧ ',' ∉ name.toList) →
      ∀ type, namesOf (String.intercalate "," (matrix.changed type)) = matrix.changed type) := by
  intro matrix
  refine ⟨?_, ⟨matrix.toJson.compact, rfl, ?_, ?_⟩, ?_⟩
  · rw [workflowOutput_eq]
    exact isPlain_line matrix.changed
  · rw [← document_toJson]
    exact Json.readFirst_compact matrix.hasNaturals_toJson
  · rw [← sorted_toJson]
    exact Json.parse_compact matrix.hasNaturals_toJson matrix.height_toJson
  · intro plain type
    apply namesOf_intercalate
    intro name listed
    exact plain name (mem_keys_of_mem_changed listed)

/-- Names that try to end the line, to close the text and to escape the quote after them. -/
def hostileRegistry : Registry :=
  ((TextMap.empty.insert "a\nmatrix=\x7b\x7d" ⟨TextSet.ofList ["a.rs"], .f64⟩).insert
    "b\"\x7d" ⟨TextSet.ofList ["a.rs"], .f64⟩).insert "c\\" ⟨TextSet.ofList ["a.rs"], .f32⟩

theorem hostileRegistry_line :
    (∀ name ∈ hostileRegistry.keys, name ≠ "" ∧ ',' ∉ name.toList) ∧
      ∃ text, (resolve hostileRegistry ⟨[]⟩ (TextSet.ofList ["a.rs"])).workflowOutput =
          "matrix=" ++ text ∧
        (∃ value, Json.parse text = .ok value) ∧
        '\n' ∉ ("matrix=" ++ text).toList ∧
        namesOf "a\nmatrix=\x7b\x7d,b\"\x7d" = ["a\nmatrix=\x7b\x7d", "b\"\x7d"] := by
  have plain : ∀ name ∈ hostileRegistry.keys, name ≠ "" ∧ ',' ∉ name.toList := by
    decide +kernel
  have listed : (resolve hostileRegistry ⟨[]⟩ (TextSet.ofList ["a.rs"])).changed .f64 =
      ["a\nmatrix=\x7b\x7d", "b\"\x7d"] := by
    decide +kernel
  obtain ⟨controls, ⟨text, line, _, value⟩, recovered⟩ :=
    workflowOutput_decodes hostileRegistry ⟨[]⟩ (TextSet.ofList ["a.rs"])
  have oneLine : '\n' ∉ ("matrix=" ++ text).toList := by
    rw [← line]
    intro member
    exact absurd (controls '\n' member) (by decide)
  have names := recovered plain .f64
  rw [listed] at names
  exact ⟨plain, text, line, ⟨_, value⟩, oneLine, names⟩

end RoutineWatch.TestMatrix
