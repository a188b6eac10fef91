import RoutineWatch.Json.Reader

/-!
# The types of routines

The floating point types a routine can work on, in the order every table lists them.

Specification, § 10.1.
-/
namespace RoutineWatch

/-- The precision of a routine. -/
inductive FloatType where
  | f16
  | f32
  | f64
  | f128
deriving DecidableEq, Repr

namespace FloatType

/-- All types, narrowest first. -/
def all : List FloatType := [.f16, .f32, .f64, .f128]

/-- The written form of a type. -/
def name : FloatType → String
  | .f16 => "f16"
  | .f32 => "f32"
  | .f64 => "f64"
  | .f128 => "f128"

/-- The type with the given written form. -/
def ofName? (text : String) : Option FloatType := all.find? fun ty => ty.name = text

def unknownMessage (text : String) : String := "unknown float type `" ++ text ++ "`"

def ofJson : Json → Except Mismatch FloatType
  | .string text =>
    match ofName? text with
    | some ty => .ok ty
    | none => .error (.refused (unknownMessage text))
  | value => .error (.wrongType value.found "a string")

def parse (text : String) : Except Mismatch FloatType :=
  match Json.readFirst text.toList with
  | (.string (some name), rest) =>
    match ofName? name with
    | none => .error (.refused (unknownMessage name))
    | some ty => if Json.atEnd rest then .ok ty else .error Json.malformed
  | (document, _) => .error (document.mismatch "a string")

theorem ofName?_name (ty : FloatType) : ofName? ty.name = some ty := by
  cases ty <;> decide

end FloatType

end RoutineWatch
