import RoutineWatch.Log

/-!
# Which events are shown

Which events are shown. A filter is a row of directives: a level, a target with a level,
or a target alone, which shows all of it. Of the directives that fit an event the one
with the longest target counts.

- `LogFilter.ofVariable`: the filter of the variable.

Specification, § 10.11. Directives about spans of time and their fields are read and never
count, for no event has a span.
-/
namespace RoutineWatch

/-- A directive: what it is about, and the least grave level that it shows; `none` shows
nothing. -/
structure Directive where
  target : String
  level : Option Level
deriving DecidableEq, Repr

structure LogFilter where
  directives : List Directive
deriving DecidableEq, Repr

namespace LogFilter

/-- What all events of this program are about. -/
def ownTarget : String := "libm_ci"

/-- The levels by name and by number; `none` is for no events at all. -/
def levels : List (String × String × Option Level) := [
  ("off", "0", none),
  ("error", "1", some .error),
  ("warn", "2", some .warn),
  ("info", "3", some .info),
  ("debug", "4", some .debug),
  ("trace", "5", some .trace)]

/-- The level of a name in any case, or of a number. -/
def level? (text : String) : Option (Option Level) :=
  (levels.find? fun l => l.1 = text.toLower || l.2.1 = text).map (·.2.2)

/-- Characters that a directive may start with. -/
def mayStart (c : Char) : Bool := c.isAlphanum || c = '-' || c = ':' || c = '_' || c = '['

/-- Reads a directive; outer `none` if it is none, inner `none` if it is about spans of
time, of which there are none here. -/
def directive? (text : String) : Option (Option Directive) :=
  let chars := text.toList
  if !(chars.head?.map mayStart).getD false then none
  else if chars.contains '[' then some none
  else
    match chars.dropWhile (· ≠ '=') with
    | [] =>
      match level? text with
      | some level => some (some ⟨"", level⟩)
      | none => some (some ⟨text, some .trace⟩)
    | _ :: level =>
      let target := String.ofList (chars.takeWhile (· ≠ '='))
      if level.isEmpty then some (some ⟨target, some .trace⟩)
      else (level? (String.ofList level)).map fun level => some ⟨target, level⟩

/-- The filter without any other one: warnings and what is graver. -/
def standard : LogFilter := ⟨[⟨"", some .warn⟩]⟩

/-- The filter of a text with commas between its directives. A text without any shows
errors only. -/
def parse? (text : String) : Option LogFilter :=
  let parts := (text.splitOn ",").filter (· ≠ "")
  if parts.isEmpty then some ⟨[⟨"", some .error⟩]⟩
  else (parts.mapM directive?).map fun ds => ⟨ds.filterMap id⟩

/-- The filter of a variable; one that is not set or cannot be read is the standard
one. -/
def ofVariable (value : Option String) : LogFilter := (value.bind parse?).getD standard

/-- The directive that counts for the events of this program. -/
def decisive? (f : LogFilter) : Option Directive :=
  (f.directives.filter fun d => d.target.toList.isPrefixOf ownTarget.toList).foldl
    (fun best d =>
      match best with
      | none => some d
      | some b => if b.target.length ≤ d.target.length then some d else some b)
    none

def shows (f : LogFilter) (e : Event) : Bool :=
  match f.decisive?.bind Directive.level with
  | some level => e.level.rank ≤ level.rank
  | none => false

end LogFilter

end RoutineWatch
