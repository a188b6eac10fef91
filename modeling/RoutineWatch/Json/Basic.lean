import RoutineWatch.Number.Shortest
import RoutineWatch.Decode

/-!
# JSON values

JSON values. The members of an object that was read stand in strictly ascending key
order, the last of several with one key counting, so two objects with the same members
are the same value; `Json.ofMembers` puts members into that form. An object that is only
written may list its members in any order.
-/
namespace RoutineWatch

/-- A JSON number: an integer of at most 64 bits, or a floating point number. -/
inductive JsonNumber where
  | integer (value : Int)
  | real (value : Binary64)
deriving DecidableEq, Repr

/-- The number as a JSON text writes it. -/
def JsonNumber.render : JsonNumber → String
  | .integer value => toString value
  | .real value => DecimalStyle.json.render value

inductive Json where
  | null
  | bool (value : Bool)
  | number (value : JsonNumber)
  | string (value : String)
  | array (items : List Json)
  | object (members : List (String × Json))
deriving Repr

namespace Json

/-- Places a member in an ascending list, instead of the one of the same key. -/
def place (k : String) (v : Json) : List (String × Json) → List (String × Json)
  | [] => [(k, v)]
  | e :: es =>
    if k < e.1 then (k, v) :: e :: es
    else if k = e.1 then (k, v) :: es
    else e :: place k v es

/-- An object with the given members, in any order. -/
def ofMembers (members : List (String × Json)) : Json :=
  .object (members.foldl (fun es e => place e.1 e.2 es) [])

/-- The member of an object; other values have none. -/
def get? (key : String) : Json → Option Json
  | .object members => (members.find? fun e => e.1 = key).map (·.2)
  | _ => none

/-- What a value is, for a message. -/
def found : Json → Found
  | .null => .null
  | .bool value => .boolean value
  | .number (.integer value) => .integer value
  | .number (.real value) => .real (DecimalStyle.json.render value)
  | .string value => .string value
  | .array _ => .sequence
  | .object _ => .map

def nat (n : Nat) : Json := .number (.integer n)

end Json

end RoutineWatch
