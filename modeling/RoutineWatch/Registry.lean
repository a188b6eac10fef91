import RoutineWatch.FileTree.Access
import RoutineWatch.FloatType
import RoutineWatch.Json.Printer
import RoutineWatch.Json.Reader
import RoutineWatch.Log
import RoutineWatch.Ordered.Map

/-!
# The routine registry

The routine registry: for each public routine its type and the files that define or
feed it. It is stored as a JSON object with a comment ahead of the routines, and read
back entry by entry: an entry that does not decode is skipped with a warning.

- `Registry.parse`, `Registry.load`: reading the stored form.
- `Registry.render`: writing it.
- `Registry.functionList`: the list of the names.

Specification, §§ 3, 6 and 10.2.
-/
namespace RoutineWatch

/-- What is known of a public routine. -/
structure Routine where
  sources : TextSet
  type : FloatType
deriving DecidableEq

/-- The public routines by name. -/
abbrev Registry := TextMap Routine

namespace Routine

/-- What a reader of a routine expects. -/
def expected : String := "struct Routine"

/-- Reads one text into a set. -/
def addSource (set : TextSet) : Json → Except Mismatch TextSet
  | .string text => .ok (set.insert text)
  | value => .error (.wrongType value.found "a string")

/-- Reads a set of texts. -/
def sourcesOfJson : Json → Except Mismatch TextSet
  | .array items => items.foldlM addSource TextSet.empty
  | value => .error (.wrongType value.found "a sequence")

/-- Reads one member of a routine; unknown members are ignored. -/
def addField (known : Option TextSet × Option FloatType) (member : String × Json) :
    Except Mismatch (Option TextSet × Option FloatType) :=
  if member.1 = "sources" then do
    let sources ← sourcesOfJson member.2
    .ok (some sources, known.2)
  else if member.1 = "type" then do
    let type ← FloatType.ofJson member.2
    .ok (known.1, some type)
  else .ok known

/-- Reads a routine's members in ascending key order. -/
def ofMembers (members : List (String × Json)) : Except Mismatch Routine := do
  match ← members.foldlM addField (none, none) with
  | (none, _) => .error (.missingField "sources")
  | (some _, none) => .error (.missingField "type")
  | (some sources, some type) => .ok ⟨sources, type⟩

/-- What is said of a list of the wrong length. -/
def wrongLength (length : Nat) : Mismatch :=
  .wrongLength length (expected ++ " with 2 elements")

/-- Reads a routine from a list of its field values. -/
def ofItems : List Json → Except Mismatch Routine
  | [] => .error (wrongLength 0)
  | [sources] => do
    let _ ← sourcesOfJson sources
    .error (wrongLength 1)
  | sources :: type :: rest => do
    let sources ← sourcesOfJson sources
    let type ← FloatType.ofJson type
    if rest.isEmpty then .ok ⟨sources, type⟩
    else .error (.wrongLength (rest.length + 2) "fewer elements in array")

/-- Reads a routine from an object or from a list of its field values. -/
def ofJson : Json → Except Mismatch Routine
  | .object members => ofMembers members
  | .array items => ofItems items
  | value => .error (.wrongType value.found expected)

def toJson (r : Routine) : Json :=
  .object [("sources", .array (r.sources.toList.map .string)), ("type", .string r.type.name)]

end Routine

namespace Registry

/-- The key of the comment in the stored form. -/
def commentKey : String := "__comment"

/-- The comment ahead of the routines. -/
def comment : String :=
  "Autogenerated by `libm-ci update-api-list`. " ++
  "List of files that define a function with a given name. " ++
  "This file is checked in to make it obvious if refactoring breaks things"

def listHeader : String := "# autogenerated by `libm-ci update-api-list`"

def formatName : String := "function definitions"

/-- What is said of an entry that does not decode. -/
def skipped (name : String) (mismatch : Mismatch) : Event :=
  .warn ("skipping definition for `" ++ name ++ "`: " ++ mismatch.message)

/-- Reads one entry into the registry, or says why it is skipped. -/
def addMember (read : Registry × List Event) (member : String × Json) : Registry × List Event :=
  if member.1 = commentKey then read
  else
    match Routine.ofJson member.2 with
    | .ok routine => (read.1.insert member.1 routine, read.2)
    | .error mismatch => (read.1, read.2 ++ [skipped member.1 mismatch])

/-- Reads the stored form. -/
def parse (text : String) : Except Error (Registry × List Event) :=
  match Json.parseMembers text with
  | .ok members => .ok (members.foldl addMember (TextMap.empty, []))
  | .error mismatch => .error (.parse formatName mismatch.message)

/-- Names the file in what is said of contents that do not decode. -/
def blame (path : Path) : Error → Error
  | .parse _ message => .parse path.display message
  | e => e

/-- Reads the checked-in file. -/
def load (t : FileTree) (here : Place) (path : Path) : Except Error (Registry × List Event) :=
  match t.readText here path with
  | .error cause => .error (.io path cause)
  | .ok text => (parse text).mapError (blame path)

/-- The members of the stored form: the comment, then the routines by name. -/
def members (registry : Registry) : List (String × Json) :=
  (commentKey, .string comment) :: registry.toList.map fun e => (e.1, e.2.toJson)

/-- The stored form, indented by four blanks a level. -/
def render (registry : Registry) : String :=
  Json.pretty 4 (.object registry.members) ++ "\n"

/-- The function list: a header line, then a name a line. -/
def functionList (registry : Registry) : String :=
  listHeader ++ "\n" ++ String.join (registry.keys.map (· ++ "\n"))

end Registry

end RoutineWatch
