import RoutineWatch.Json.Reader
import RoutineWatch.Run

/-!
# The documentation index

The documentation index: a JSON document whose member `index` maps ids to items. Only a
handful of fields is read, and an item of another shape simply does not qualify for
what is asked of it.

- `DocItem`: an item, with the questions that are put to it.
- `DocIndex.items`, `DocIndex.get?`: all items, and the item of an id.
- `DocIndex.build`: the index that the documentation tool prints.

Specification, §§ 9 and 10.3. The tool itself is a parameter.
-/
namespace RoutineWatch

structure DocIndex where
  root : Json

structure DocItem where
  value : Json

namespace Json

/-- The text of a string. -/
def text? : Json → Option String
  | .string text => some text
  | _ => none

end Json

namespace DocItem

def isPublic (item : DocItem) : Bool :=
  ((item.value.get? "visibility").bind Json.text?) = some "public"

def isFunction (item : DocItem) : Bool :=
  ((item.value.get? "inner").bind (Json.get? "function")).isSome

/-- The id a JSON value spells: a text, or a number's text. -/
def idText? : Json → Option String
  | .string text => some text
  | .number value => some value.render
  | _ => none

/-- The id of the item that a re-export stands for. -/
def useTarget? (item : DocItem) : Option String := do
  let inner ← item.value.get? "inner"
  let use ← inner.get? "use"
  let id ← use.get? "id"
  idText? id

/-- The file the item is declared in. -/
def file? (item : DocItem) : Option String := do
  let span ← item.value.get? "span"
  let filename ← span.get? "filename"
  filename.text?

def name? (item : DocItem) : Option String := do
  let name ← item.value.get? "name"
  name.text?

end DocItem

namespace DocIndex

def parse (text : String) : Except Mismatch DocIndex := (Json.parse text).map DocIndex.mk

/-- The ids of the index with their items, by id. -/
def entries (index : DocIndex) : List (String × Json) :=
  match index.root.get? "index" with
  | some (.object members) => members
  | _ => []

def items (index : DocIndex) : List DocItem := index.entries.map fun e => ⟨e.2⟩

/-- The item of an id. Items of other libraries are not in the index. -/
def get? (index : DocIndex) (id : String) : Option DocItem := do
  let table ← index.root.get? "index"
  (table.get? id).map DocItem.mk

/-- The documentation tool. -/
def builder : String := "rustdoc"

def outputName : String := "rustdoc output"

/-- Builds the index from a directory. -/
def build {σ : Type} (runner : ToolRunner σ) (root : Path) (arguments : List String)
    (state : σ) : ToolRun σ DocIndex :=
  let run := runner.output builder arguments root state
  let result := do
    let text ← run.result
    (parse text).mapError fun mismatch => Error.parse outputName mismatch.message
  ⟨result, run.notices, run.state⟩

end DocIndex

end RoutineWatch
