import RoutineWatch.Text.Quoted

/-!
# Why a document is not read into a shape

What can be wrong when a document is read into a value of a known shape. The causes
are shared by the JSON and the TOML reader, and so is their wording.

- `Mismatch`: the causes.
- `Mismatch.message`: what is said of one.
-/
namespace RoutineWatch

/-- What stood where something else was expected. -/
inductive Found where
  | null
  | boolean (value : Bool)
  | integer (value : Int)
  /-- A number that is no integer, in the document format's own writing. -/
  | real (text : String)
  | string (value : String)
  | sequence
  | map
deriving DecidableEq, Repr

/-- How a finding is named in a message. -/
def Found.describe : Found → String
  | .null => "null"
  | .boolean value => "boolean `" ++ toString value ++ "`"
  | .integer value => "integer `" ++ toString value ++ "`"
  | .real text => "floating point `" ++ text ++ "`"
  | .string value => "string " ++ Quoted.text value
  | .sequence => "sequence"
  | .map => "map"

/-- Why a document could not be read into the value asked for. -/
inductive Mismatch where
  /-- The text is no document of its format. -/
  | unreadable (format : String)
  | wrongType (found : Found) (expected : String)
  | wrongValue (found : Found) (expected : String)
  | wrongLength (length : Nat) (expected : String)
  | missingField (name : String)
  | duplicateField (name : String)
  | unknownField (name : String) (known : List String)
  /-- A text that stands for none of the values of its type. -/
  | refused (reason : String)
deriving DecidableEq, Repr

namespace Mismatch

/-- A name in backticks. -/
def ticked (name : String) : String := "`" ++ name ++ "`"

/-- The names that would have been right. -/
def choices : List String → String
  | [] => "there are no fields"
  | [a] => "expected " ++ ticked a
  | [a, b] => "expected " ++ ticked a ++ " or " ++ ticked b
  | names => "expected one of " ++ String.intercalate ", " (names.map ticked)

def message : Mismatch → String
  | .unreadable format => "<" ++ format ++ " syntax>"
  | .wrongType found expected =>
    "invalid type: " ++ found.describe ++ ", expected " ++ expected
  | .wrongValue found expected =>
    "invalid value: " ++ found.describe ++ ", expected " ++ expected
  | .wrongLength length expected =>
    "invalid length " ++ toString length ++ ", expected " ++ expected
  | .missingField name => "missing field " ++ ticked name
  | .duplicateField name => "duplicate field " ++ ticked name
  | .unknownField name known => "unknown field " ++ ticked name ++ ", " ++ choices known
  | .refused reason => reason

end Mismatch

end RoutineWatch
