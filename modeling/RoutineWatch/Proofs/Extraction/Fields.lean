import RoutineWatch.DocIndex

/-!
# The fields of an item

Each question to an item reads the value that some keys lead to, and a value of another shape
is no answer. Items are looked up among the entries of the index.

- `DocItem.useTarget?_eq_some_iff`, `DocItem.isFunction_iff` and their like: each question by
  the value that is read.
- `DocIndex.mem_entries_iff`, `DocIndex.mem_items_iff`: the entries and the items of an index.
-/
namespace RoutineWatch

namespace Json

/-- The value that keys lead to, from one object to the next. -/
def at? (keys : List String) (value : Json) : Option Json :=
  keys.foldlM (fun inside key => inside.get? key) value

/-- What a value stands for as an id: a text for itself, an integer for its decimal digits,
and any other number for the shortest text that it is written by. -/
inductive StandsFor : Json → String → Prop where
  | text (id : String) : StandsFor (.string id) id
  | integer (n : Int) : StandsFor (.number (.integer n)) (toString n)
  | real (x : Binary64) : StandsFor (.number (.real x)) (DecimalStyle.json.render x)

theorem text?_eq_some_iff {value : Json} {text : String} :
    value.text? = some text ↔ value = .string text := by
  cases value <;> simp [text?]

end Json

namespace DocItem

/-- An item is a re-export of the item of an id. -/
def PointsTo (item : DocItem) (id : String) : Prop :=
  ∃ value, item.value.at? ["inner", "use", "id"] = some value ∧ value.StandsFor id

theorem isPublic_iff {item : DocItem} :
    item.isPublic = true ↔ item.value.at? ["visibility"] = some (.string "public") := by
  cases field : item.value.get? "visibility" <;>
    simp [isPublic, Json.at?, field, Json.text?_eq_some_iff]

theorem isFunction_iff {item : DocItem} :
    item.isFunction = true ↔ ∃ value, item.value.at? ["inner", "function"] = some value := by
  cases field : item.value.get? "inner" <;>
    simp [isFunction, Json.at?, field, Option.isSome_iff_exists]

theorem file?_eq_some_iff {item : DocItem} {text : String} :
    item.file? = some text ↔ item.value.at? ["span", "filename"] = some (.string text) := by
  simp [file?, Json.at?, Json.text?_eq_some_iff, Option.bind_eq_some_iff]

theorem name?_eq_some_iff {item : DocItem} {text : String} :
    item.name? = some text ↔ item.value.at? ["name"] = some (.string text) := by
  simp [name?, Json.at?, Json.text?_eq_some_iff, Option.bind_eq_some_iff]

theorem idText?_eq_some_iff {value : Json} {id : String} :
    idText? value = some id ↔ value.StandsFor id := by
  constructor
  · intro read
    cases value with
    | string text => exact Option.some.inj read ▸ .text text
    | number value =>
      cases value with
      | integer n => exact Option.some.inj read ▸ .integer n
      | real x => exact Option.some.inj read ▸ .real x
    | null | bool _ | array _ | object _ => cases read
  · intro stands
    cases stands <;> rfl

theorem useTarget?_eq_some_iff {item : DocItem} {id : String} :
    item.useTarget? = some id ↔ item.PointsTo id := by
  have read : item.useTarget? = (item.value.at? ["inner", "use", "id"]).bind idText? := by
    simp [useTarget?, Json.at?, Option.bind_assoc]
  rw [read, Option.bind_eq_some_iff]
  simp only [idText?_eq_some_iff, PointsTo]

end DocItem

namespace DocIndex

theorem mem_entries_iff {index : DocIndex} {id : String} {value : Json} :
    (id, value) ∈ index.entries ↔
      ∃ table, index.root.at? ["index"] = some (.object table) ∧ (id, value) ∈ table := by
  unfold entries
  cases field : index.root.get? "index" with
  | none => simp [Json.at?, field]
  | some table => cases table <;> simp [Json.at?, field]

theorem get?_eq_some_iff {index : DocIndex} {id : String} {item : DocItem} :
    index.get? id = some item ↔ index.root.at? ["index", id] = some item.value := by
  obtain ⟨value⟩ := item
  cases field : index.root.get? "index" <;> simp [get?, Json.at?, field]

theorem mem_items_iff {index : DocIndex} {item : DocItem} :
    item ∈ index.items ↔ ∃ id, (id, item.value) ∈ index.entries := by
  unfold items
  rw [List.mem_map]
  constructor
  · rintro ⟨e, entry, rfl⟩
    exact ⟨e.1, entry⟩
  · rintro ⟨id, entry⟩
    exact ⟨_, entry, rfl⟩

/-- An id is looked up among the entries. -/
theorem get?_eq (index : DocIndex) (id : String) :
    index.get? id = (index.entries.find? fun e => e.1 = id).map fun e => ⟨e.2⟩ := by
  unfold get? entries
  cases index.root.get? "index" with
  | none => rfl
  | some table => cases table <;> simp [Json.get?, Function.comp_def]

theorem entry_of_get? {index : DocIndex} {id : String} {item : DocItem}
    (found : index.get? id = some item) : (id, item.value) ∈ index.entries := by
  rw [get?_eq] at found
  obtain ⟨e, first, rfl⟩ := Option.map_eq_some_iff.1 found
  have key : e.1 = id := by simpa using List.find?_some first
  exact key ▸ List.mem_of_find?_eq_some first

theorem get?_of_entry {index : DocIndex} {id : String} {value : Json}
    (entry : (id, value) ∈ index.entries) : ∃ item, index.get? id = some item := by
  rw [← Option.isSome_iff_exists, get?_eq, Option.isSome_map, List.find?_isSome]
  exact ⟨_, entry, by simp⟩

end DocIndex

end RoutineWatch
