import RoutineWatch.Diff.Hunk
import RoutineWatch.Terminal

/-!
# Drift of a checked-in file

Drift of a checked-in file from what would be generated: the unified diff from the one
to the other, and how its lines are colored.

- `Drift.check`: the comparison.
- `Drift.render`: the diff for an output.

Specification, §§ 4.5 and 10.7.
-/
namespace RoutineWatch

/-- A difference between a checked-in file and its generated contents. -/
structure Drift where
  diff : String
deriving DecidableEq, Repr

namespace Drift

def message : String := "generated output differs from checked-in file"

/-- Compares a checked-in text with the generated one. -/
def check (actual expected : String) : Option Drift :=
  if actual = expected then none
  else some ⟨Diff.unified "actual" "expected" actual expected⟩

/-- The style of a line, told by how it starts. -/
def lineStyle (line : List Char) : Style :=
  if ['-', '-', '-'].isPrefixOf line || ['+', '+', '+'].isPrefixOf line then .bold
  else if ['@', '@'].isPrefixOf line then .cyan
  else if ['-'].isPrefixOf line then .red
  else if ['+'].isPrefixOf line then .green
  else .plain

def lines (d : Drift) : List (List Char) := Line.atLineFeed d.diff.toList

/-- The diff for an output, colored or not. -/
def render (d : Drift) (colored : Bool) : String :=
  String.ofList (d.lines.flatMap fun line =>
    if colored then (lineStyle line).paint line else line)

end Drift

end RoutineWatch
