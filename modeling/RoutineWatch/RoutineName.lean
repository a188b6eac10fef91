import RoutineWatch.FloatType

/-!
# Names of routines

Routine names. A name is a base followed by the mark of its type: none for `f64`, `f`
for `f32`, and the type's own name for the others. A short table is consulted first,
because some bases end in `f` themselves.

- `RoutineName.split`: base and type of a name.

Specification, §§ 4.1 and 10.1.
-/
namespace RoutineWatch.RoutineName

/-- One way to take a name apart. -/
inductive Rule where
  /-- The whole name has a fixed base and type. -/
  | exact (name base : String) (type : FloatType)
  /-- Something is left before the mark. -/
  | marked (mark : String) (type : FloatType)
deriving DecidableEq, Repr

/-- The text before a mark, if it is not empty. -/
def beforeMark? (mark name : List Char) : Option (List Char) :=
  let base := name.take (name.length - mark.length)
  if base ++ mark = name && !base.isEmpty then some base else none

/-- Base and type by one rule. -/
def Rule.decompose? : Rule → String → Option (String × FloatType)
  | .exact full base type, name => if name = full then some (base, type) else none
  | .marked mark type, name =>
    (beforeMark? mark.toList name.toList).map fun base => (String.ofList base, type)

/-- The rules; the first that applies decides. -/
def rules : List Rule := [
  .exact "erff" "erf" .f32,
  .exact "erf" "erf" .f64,
  .exact "modff" "modf" .f32,
  .exact "modf" "modf" .f64,
  .exact "lgammaf_r" "lgamma_r" .f32,
  .exact "lgamma_r" "lgamma_r" .f64,
  .marked "f128" .f128,
  .marked "f16" .f16,
  .marked "f" .f32]

/-- Base and type of a name. A name that no rule takes apart is its own base. -/
def split (name : String) : String × FloatType :=
  (rules.findSome? fun rule => rule.decompose? name).getD (name, .f64)

def base (name : String) : String := (split name).1

def type (name : String) : FloatType := (split name).2

end RoutineWatch.RoutineName
