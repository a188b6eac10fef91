/-!
# Log events

Log events. A computation that logs returns its events in the order they arise;
filtering and layout are left to whoever shows them.

- `Event.line`: an event as the log shows it.

Specification, § 10.11.
-/
namespace RoutineWatch

/-- How grave an event is, gravest first. -/
inductive Level where
  | error
  | warn
  | info
  | debug
  | trace
deriving DecidableEq, Repr

def Level.rank : Level → Nat
  | .error => 0
  | .warn => 1
  | .info => 2
  | .debug => 3
  | .trace => 4

def Level.name : Level → String
  | .error => "ERROR"
  | .warn => "WARN"
  | .info => "INFO"
  | .debug => "DEBUG"
  | .trace => "TRACE"

/-- Something worth recording. -/
structure Event where
  level : Level
  message : String
deriving DecidableEq, Repr

namespace Event

def warn (message : String) : Event := ⟨.warn, message⟩

def info (message : String) : Event := ⟨.info, message⟩

def debug (message : String) : Event := ⟨.debug, message⟩

/-- An event on one line, without a time. -/
def text (e : Event) : String := e.level.name ++ " " ++ e.message

/-- The level of an event, padded to the width of the longest one. -/
def paddedLevel (e : Event) : String :=
  String.ofList (List.replicate (5 - e.level.name.length) ' ') ++ e.level.name

/-- A character of a message as the program's log shows it: what could control a
terminal is written out. -/
def shownChar (c : Char) : List Char :=
  if c = '\x1b' then ['\\', 'x', '1', 'b']
  else if c = '\x07' then ['\\', 'x', '0', '7']
  else if c = '\x08' then ['\\', 'x', '0', '8']
  else if c = '\x0c' then ['\\', 'x', '0', 'c']
  else if c = '\x7f' then ['\\', 'x', '7', 'f']
  else if 0x80 ≤ c.toNat && c.toNat ≤ 0x9f then
    '\\' :: 'u' :: '\x7b' :: Nat.toDigits 16 c.toNat ++ ['\x7d']
  else [c]

def shownMessage (e : Event) : String := String.ofList (e.message.toList.flatMap shownChar)

/-- The sequence that the level of an event is colored by. -/
def colorCode (e : Event) : String :=
  match e.level with
  | .error => "31"
  | .warn => "33"
  | .info => "32"
  | .debug => "34"
  | .trace => "35"

/-- A text between a sequence that sets a style and the one that clears it. -/
def styled (code text : String) : String := "\x1b[" ++ code ++ "m" ++ text ++ "\x1b[0m"

/-- An event as a line of the program's log, with the time it arose at. -/
def line (colored : Bool) (time : String) (e : Event) : String :=
  if colored then
    styled "2" time ++ " " ++ styled e.colorCode e.paddedLevel ++ " " ++ e.shownMessage
  else time ++ " " ++ e.paddedLevel ++ " " ++ e.shownMessage

end Event

end RoutineWatch
