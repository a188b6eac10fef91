import RoutineWatch.DocIndex
import RoutineWatch.Path
import RoutineWatch.Registry
import RoutineWatch.RoutineName
import RoutineWatch.Text.Basic

/-!
# Extraction of the registry

Extraction of the registry from a documentation index. The public functions are those
that a public re-export of a root module leads to. A file is a source of such a name
when an item of that name is declared in it, when it belongs to the sources of an
architecture and has the text `fn name`, or when it is a shared file of the name's base.
The textual test takes comments and longer names too; a source too many only means a
test too many.

- `Extraction.publicFunctions`: the public functions.
- `Extraction.declared`, `Extraction.scan`, `Extraction.propagate`: the three ways to sources.
- `Extraction.extract`: the registry.

Specification, §§ 4.2 and 10.4.
-/
namespace RoutineWatch

/-- A source file: its path from the root in normal form, and its text. -/
structure SourceFile where
  path : String
  contents : String
deriving DecidableEq, Repr

/-- What extraction depends on besides its input. -/
structure ExtractionRule where
  /-- Files whose public re-exports make up the public functions. -/
  reexportModules : List String
  /-- A source whose path has this text is shared by all variants of a routine. -/
  genericMarker : String
deriving DecidableEq, Repr

/-- The sources that were found for each public function. -/
abbrev SourceTable := TextMap TextSet

namespace SourceTable

/-- Names without sources. -/
def ofNames (names : TextSet) : SourceTable :=
  ⟨names.toList.map fun name => (name, TextSet.empty), by
    rw [List.pairwise_map]
    exact names.ascending⟩

/-- Adds a source of a name. A name that is not in the table stays out. -/
def add (table : SourceTable) (name path : String) : SourceTable :=
  match table.get? name with
  | some paths => table.insert name (paths.insert path)
  | none => table

end SourceTable

namespace Extraction

/-- The names a re-export leads to: at most one. -/
def exported? (rule : ExtractionRule) (index : DocIndex) (item : DocItem) : Option String := do
  guard item.isPublic
  let file ← item.file?
  guard (rule.reexportModules.contains file)
  let id ← item.useTarget?
  let target ← index.get? id
  guard target.isFunction
  target.name?

/-- The public functions, ascending. -/
def publicFunctions (rule : ExtractionRule) (index : DocIndex) : TextSet :=
  TextSet.ofList (index.items.filterMap (exported? rule index))

/-! Declarations -/

/-- Adds the file of a function item to the sources of the item's name. -/
def addDeclaration (table : SourceTable) (item : DocItem) : SourceTable :=
  if item.isFunction then
    match item.name?, item.file? with
    | some name, some file => table.add name (Path.ofString file).posix
    | _, _ => table
  else table

/-- The public functions with the files in which items of their names are declared. -/
def declared (index : DocIndex) (functions : TextSet) : SourceTable :=
  index.items.foldl addDeclaration (SourceTable.ofNames functions)

/-! Mentions -/

/-- The text that marks a definition. -/
def definitionText (name : String) : List Char := 'f' :: 'n' :: ' ' :: name.toList

/-- Names with their reversed definition texts, longest first. -/
def searchTable (functions : TextSet) : List (String × List Char) :=
  (functions.toList.map fun name => (name, (definitionText name).reverse)).mergeSort
    fun a b => b.2.length ≤ a.2.length

/-- The names whose definition text ends at this place of a reversed text, longest
first. -/
def endingHere (names : List (String × List Char)) (reversed : List Char) : List String :=
  (names.filter fun e => e.2.isPrefixOf reversed).map (·.1)

/-- Every mention of a name in a text, in the order in which the mentions end. -/
def mentionsInOrder (names : List (String × List Char)) (reversed : List Char) :
    List Char → List String
  | [] => []
  | c :: cs =>
    endingHere names (c :: reversed) ++ mentionsInOrder names (c :: reversed) cs

/-- Adds a file to the sources of a name that it mentions, and records it if it is new
there. -/
def addMention (path : String) (state : SourceTable × List Event) (name : String) :
    SourceTable × List Event :=
  match state.1.get? name with
  | some paths =>
    if paths.contains path then state
    else
      (state.1.add name path,
        state.2 ++ [.debug (path ++ " textually defines `" ++ name ++ "`")])
  | none => state

/-- Adds a file to the sources of all names that it mentions. -/
def scanFile (names : List (String × List Char)) (state : SourceTable × List Event)
    (file : SourceFile) : SourceTable × List Event :=
  (mentionsInOrder names [] file.contents.toList).foldl (addMention file.path) state

/-- Adds files to the sources of all names that they mention. -/
def scan (files : List SourceFile) (functions : TextSet) (table : SourceTable) :
    SourceTable × List Event :=
  files.foldl (scanFile (searchTable functions)) (table, [])

/-! Shared files -/

/-- Whether a source is shared by all variants of a routine. -/
def isShared (rule : ExtractionRule) (source : String) : Bool :=
  occursIn rule.genericMarker.toList source.toList

/-- Adds to the sources of a name the shared ones that its base had before. -/
def addShared (rule : ExtractionRule) (before : SourceTable) (table : SourceTable)
    (name : String) : SourceTable :=
  match before.get? (RoutineName.base name) with
  | some paths =>
    (paths.toList.filter (isShared rule)).foldl (fun table path => table.add name path) table
  | none => table

/-- Adds the shared sources of the bases to all names. -/
def propagate (rule : ExtractionRule) (table : SourceTable) : SourceTable :=
  table.keys.foldl (addShared rule table) table

/-! The registry -/

/-- The sources of all public functions, and what is recorded while they are
collected. -/
def collect (rule : ExtractionRule) (index : DocIndex) (files : List SourceFile) :
    SourceTable × List Event :=
  let functions := publicFunctions rule index
  let scanned := scan files functions (declared index functions)
  (propagate rule scanned.1, scanned.2)

def extract (rule : ExtractionRule) (index : DocIndex) (files : List SourceFile) : Registry :=
  (collect rule index files).1.mapValues fun name sources => ⟨sources, RoutineName.type name⟩

/-- What is recorded while extracting. -/
def events (rule : ExtractionRule) (index : DocIndex) (files : List SourceFile) : List Event :=
  let missing := (extract rule index files).toList.filter fun e => e.2.sources.isEmpty
  .info ("found " ++ toString (publicFunctions rule index).size ++ " public functions") ::
    (collect rule index files).2 ++
    missing.map fun e => .warn ("no definition found for `" ++ e.1 ++ "`")

end Extraction

end RoutineWatch
