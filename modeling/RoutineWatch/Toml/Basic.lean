import RoutineWatch.Number.Shortest
import RoutineWatch.Decode

/-!
# TOML values

TOML values. A table lists its entries in the order in which the text builds it, since
a reader of a known shape meets their mismatches in that order.
-/
namespace RoutineWatch

inductive Toml where
  | string (value : String)
  | integer (value : Int)
  | real (value : Binary64)
  | boolean (value : Bool)
  /-- A date, a time, or both; only its being one matters here. -/
  | datetime (text : String)
  | array (items : List Toml)
  | table (entries : List (String × Toml))
deriving Repr

namespace Toml

/-- The name of the only field that a date shows to a reader of tables. -/
def datetimeField : String := "$__toml_private_datetime"

/-- What a value is, for a message. A date passes for a table. -/
def found : Toml → Found
  | .string value => .string value
  | .integer value => .integer value
  | .real value => .real (DecimalStyle.plain.render value)
  | .boolean value => .boolean value
  | .datetime _ => .map
  | .array _ => .sequence
  | .table _ => .map

def formatName : String := "toml"

def malformed : Mismatch := .unreadable formatName

/-- Nesting of values, and length of dotted keys, stay below this bound. -/
def depthLimit : Nat := 80

end Toml

end RoutineWatch
