import RoutineWatch.FileTree.Access
import RoutineWatch.Glob.Reader
import RoutineWatch.Script.Syntax

/-!
# Sessions of scripts

A session: the state that a script runs in. Output goes to sinks, which are files of the
tree or rows of pieces that others read later on.
-/
namespace RoutineWatch.Script

/-- Where output goes. -/
inductive Sink where
  /-- To a row of pieces, by its number. -/
  | buffer (index : Nat)
  | file (place : Place)
  | nowhere
deriving DecidableEq, Repr

/-- The state of a script. -/
structure Session where
  tree : FileTree
  here : Place
  /-- What the script is called by. -/
  name : Text
  arguments : List Text
  settings : List (Text × Text)
  /-- The variables that programs get. -/
  exported : List Text
  functions : List (Text × Command)
  status : Nat
  /-- Whether a failing command ends the script. -/
  strict : Bool
  /-- The pieces written so far, last first, of each row. -/
  buffers : List (List Bytes)
  output : Sink
  errors : Sink
  /-- What is left to read. -/
  input : Bytes

/-- How a command ends. -/
inductive Flow where
  | next
  | exit
  | killed (signal : Nat)
  /-- Loops are left, as many as given. -/
  | leave (loops : Nat)
  /-- Loops are left but for the last one, which goes on. -/
  | again (loops : Nat)
  | back
deriving DecidableEq, Repr

/-- How a program ends. -/
inductive Ending where
  | exited (status : Nat)
  | killed (signal : Nat)
deriving DecidableEq, Repr

/-- The signal that ends what runs too long. -/
def tooLong : Nat := 24

/-- The number that stands for a script itself. -/
def processId : Nat := 4242

namespace Session

def write (s : Session) (sink : Sink) (bytes : Bytes) : Session :=
  match sink with
  | .nowhere => s
  | .buffer n => { s with buffers := s.buffers.modify n (bytes :: ·) }
  | .file place =>
    match s.tree.node? place with
    | some (.file contents executable) =>
      { s with tree := s.tree.put place (.file (contents ++ bytes) executable) }
    | _ => s

def print (s : Session) (text : Text) : Session := s.write s.output (toBytes text)

def complain (s : Session) (text : Text) : Session := s.write s.errors (toBytes text)

def complainAt (s : Session) (line : Nat) (text : Text) : Session :=
  s.complain (s.name ++ ofString (": " ++ toString line ++ ": ") ++ text ++ ['\n'])

def written (s : Session) (n : Nat) : Bytes := ((s.buffers.getD n []).reverse).flatten

def newBuffer (s : Session) : Session × Nat :=
  ({ s with buffers := s.buffers ++ [[]] }, s.buffers.length)

def value? (s : Session) (name : Text) : Option Text :=
  (s.settings.find? fun v => v.1 = name).map (·.2)

def assign (s : Session) (name value : Text) : Session :=
  { s with settings := (name, value) :: s.settings.filter fun v => v.1 ≠ name }

def unset (s : Session) (name : Text) : Session :=
  { s with settings := s.settings.filter fun v => v.1 ≠ name }

def share (s : Session) (name : Text) : Session :=
  { s with exported := name :: s.exported.filter (· ≠ name) }

def parameter? (s : Session) (name : Text) : Option Text :=
  match name with
  | ['#'] => some (ofString (toString s.arguments.length))
  | ['?'] => some (ofString (toString s.status))
  | ['$'] => some (ofString (toString processId))
  | ['!'] => none
  | ['-'] => some []
  | ['0'] => some s.name
  | c :: digits =>
    if c.isDigit then s.arguments[(c :: digits).foldl (fun n d => n * 10 + (d.toNat - 48)) 0 - 1]?
    else s.value? name
  | [] => none

def path (text : Text) : Path := ⟨toBytes text⟩

def errorText (code : Nat) : Text := ofString (SystemError.text code)

def done (s : Session) (status : Nat) : Session := { s with status := status }

/-- A session with the surroundings of another one, as after a part that ran on its own.
Files, outputs and what is left to read stay. -/
def leaveSubshell (inner outer : Session) : Session :=
  { inner with
    here := outer.here
    name := outer.name
    arguments := outer.arguments
    settings := outer.settings
    exported := outer.exported
    functions := outer.functions
    strict := outer.strict }

end Session

end RoutineWatch.Script
