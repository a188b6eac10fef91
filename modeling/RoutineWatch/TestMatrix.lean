import RoutineWatch.ChangeSet
import RoutineWatch.Registry

/-!
# The test matrix

The test matrix: for each type the routines whose sources changed. It is printed as one
line of compact JSON that a workflow reads as an output.

- `TestMatrix.resolve`: the routines to test.
- `TestMatrix.workflowOutput`: the line that a workflow reads.

Specification, §§ 3, 4.3, 6 and 10.5.
-/
namespace RoutineWatch

/-- Names of changed routines by type. -/
structure TestMatrix where
  changed : FloatType → List String

namespace TestMatrix

/-- Sources of a routine that changed and are not ignored, ascending. -/
def changedSources (ignore : IgnoreList) (changes : ChangeSet) (routine : Routine) :
    List String :=
  routine.sources.toList.filter fun source => !ignore.ignores source && changes.contains source

/-- The routines with changed sources, by name, with these sources. -/
def affected (registry : Registry) (ignore : IgnoreList) (changes : ChangeSet) :
    List (String × FloatType × List String) :=
  (registry.toList.map fun e => (e.1, e.2.type, changedSources ignore changes e.2)).filter
    fun e => !e.2.2.isEmpty

/-- The routines to test for a set of changed files. -/
def resolve (registry : Registry) (ignore : IgnoreList) (changes : ChangeSet) : TestMatrix :=
  ⟨fun type => ((affected registry ignore changes).filter fun e => e.2.1 = type).map (·.1)⟩

/-- What is recorded while resolving: the changed files of each affected routine. -/
def events (registry : Registry) (ignore : IgnoreList) (changes : ChangeSet) : List Event :=
  (affected registry ignore changes).map fun e =>
    .debug ("changed files for " ++ e.1 ++ ": " ++ Quoted.list e.2.2)

/-- The lists of all types, in the order of the types. -/
def toList (matrix : TestMatrix) : List (FloatType × List String) :=
  FloatType.all.map fun type => (type, matrix.changed type)

def isEmpty (matrix : TestMatrix) : Bool := matrix.toList.all fun e => e.2.isEmpty

def rowJson (row : FloatType × List String) : Json :=
  .object [("ty", .string row.1.name), ("changed", .string (String.intercalate "," row.2))]

def toJson (matrix : TestMatrix) : Json :=
  .object [("matrix", .array (matrix.toList.map rowJson))]

/-- The line that a workflow reads. -/
def workflowOutput (matrix : TestMatrix) : String := "matrix=" ++ matrix.toJson.compact

end TestMatrix

end RoutineWatch
