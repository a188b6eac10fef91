import RoutineWatch.CommandLine.Help

/-!
# Reading a command line

Reading a command line. The option for the configuration may stand before the command
and after it, once each; what stands after it counts first, then what stands before it,
then the variable. A value that follows its option is looked at only when the next
option, or the end, is met.

- `CommandLine.read`: what a command line asks for.

Specification, §§ 6 and 10.13.
-/
namespace RoutineWatch.CommandLine

/-- What is known of one part of a command line, before or after the command. -/
structure Level where
  flags : List String := []
  config : Option String := none
  /-- The option for the configuration was met last; its value if that was met too. -/
  pending : Option (Option String) := none
deriving DecidableEq, Repr

/-- Why reading stops. -/
inductive Stop where
  | fault (fault : UsageFault)
  | help
  | version
deriving DecidableEq, Repr

/-- A result, or why reading stopped. -/
abbrev Read := Except Stop

def setConfig (l : Level) (value : String) : Read Level :=
  if l.config.isSome then .error (.fault .argumentConflict)
  else if value.isEmpty then .error (.fault .invalidValue)
  else .ok { l with config := some value, pending := none }

/-- Takes in what is pending. -/
def settle (l : Level) : Read Level :=
  match l.pending with
  | none => .ok l
  | some none => .error (.fault .invalidValue)
  | some (some value) => setConfig l value

/-- An option for the configuration, with the value attached to it. -/
def configOption (l : Level) (attached : Option String) : Read Level := do
  let l ← settle l
  match attached with
  | some value => setConfig l value
  | none => .ok { l with pending := some none }

/-- A long option: its name, and the value attached to it. -/
def longOption? (argument : String) : Option (String × Option String) :=
  match argument.toList with
  | '-' :: '-' :: c :: cs =>
    let chars := c :: cs
    let name := chars.takeWhile (· ≠ '=')
    match chars.drop name.length with
    | [] => some (String.ofList name, none)
    | _ :: value => some (String.ofList name, some (String.ofList value))
  | _ => none

/-- Takes in a long option. -/
def readLong (known : List Flag) (l : Level) (name : String) (attached : Option String) :
    Read Level :=
  if name = "config" then configOption l attached
  else
    let isFlag := known.any fun f => f.name = name
    if !(isFlag || name = "help" || name = "version") then .error (.fault .unknownArgument)
    else if attached.isSome then .error (.fault .tooManyValues)
    else do
      let l ← settle l
      if isFlag then
        if l.flags.contains name then .error (.fault .argumentConflict)
        else .ok { l with flags := name :: l.flags }
      else .error (if name = "help" then .help else .version)

def readShort (l : Level) (letter : Char) (rest : List Char) : Read Level :=
  if letter = 'C' then
    match rest with
    | [] => configOption l none
    | '=' :: value => configOption l (some (String.ofList value))
    | value => configOption l (some (String.ofList value))
  else if letter = 'h' then do
    let _ ← settle l
    .error .help
  else if letter = 'V' then do
    let _ ← settle l
    .error .version
  else .error (.fault .unknownArgument)

/-- What is said of an argument that is neither an option nor a value. -/
def strayArgument (top afterDashes : Bool) (argument : String) : Stop :=
  if !top then .fault .unknownArgument
  else if afterDashes &&
      (argument = Help.helpCommand || (CommandShape.ofName? argument).isSome) then
    .fault .unknownArgument
  else .fault .invalidSubcommand

/-- Reads the arguments of one part. At the top it ends at the name of a command, which
it gives with the arguments after it. -/
def readLevel (top : Bool) (known : List Flag) (l : Level) :
    List String → Read (Level × Option (String × List String))
  | [] => .ok (l, none)
  | argument :: rest =>
    let isName := argument = Help.helpCommand || (CommandShape.ofName? argument).isSome
    if top && l.pending ≠ some none && isName then .ok (l, some (argument, rest))
    else if argument = "--" then
      match rest with
      | [] => .ok (l, none)
      | stray :: _ => .error (strayArgument top true stray)
    else
      match longOption? argument with
      | some (name, attached) => do readLevel top known (← readLong known l name attached) rest
      | none =>
        match argument.toList with
        | '-' :: letter :: letters => do
          readLevel top known (← readShort l letter letters) rest
        | _ =>
          if l.pending = some none then
            readLevel top known { l with pending := some (some argument) } rest
          else .error (strayArgument top false argument)

/-- Ends a part: what is pending is taken in, and the variable must not be empty if it
counts. -/
def finish (variableValue : Option String) (l : Level) : Read Level := do
  let l ← settle l
  if l.config.isNone && variableValue = some "" then .error (.fault .invalidValue)
  else .ok l

/-- What the command that shows help is asked for. -/
def readHelp (variableValue : Option String) : List String → Request
  | [] => .help (Help.main variableValue)
  | [name] =>
    if name = Help.helpCommand then .help Help.ofHelp
    else
      match CommandShape.ofName? name with
      | some c => .help (Help.command variableValue c)
      | none => .refuse .invalidSubcommand
  | _ => .refuse .invalidSubcommand

/-- What it comes to that reading stopped. -/
def stopped (help version : String) : Stop → Request
  | .fault fault => .refuse fault
  | .help => .help help
  | .version => .version version

def readCommand (variableValue : Option String) (c : CommandShape) (arguments : List String) :
    Read Level := do
  let (l, _) ← readLevel false c.flags {} arguments
  let l ← finish variableValue l
  if l.flags.contains CommandShape.extractFlag.name &&
      !l.flags.contains CommandShape.downloadFlag.name then
    .error (.fault .missingRequired)
  else .ok l

def read (variableValue : Option String) (arguments : List String) : Request :=
  let stoppedAtTop := stopped (Help.main variableValue) Help.mainVersion
  match readLevel true [] {} arguments with
  | .error stop => stoppedAtTop stop
  | .ok (top, none) =>
    match finish variableValue top with
    | .error stop => stoppedAtTop stop
    | .ok top =>
      if top.config.isNone && variableValue.isNone then .refuse .nothingGiven
      else .refuse .missingSubcommand
  | .ok (top, some (name, rest)) =>
    match CommandShape.ofName? name with
    | none => readHelp variableValue rest
    | some c =>
      match readCommand variableValue c rest with
      | .error stop => stopped (Help.command variableValue c) (Help.commandVersion c) stop
      | .ok inner =>
        match finish variableValue top with
        | .error stop => stoppedAtTop stop
        | .ok top =>
          .run ⟨(inner.config.or top.config).or variableValue, c.make inner.flags⟩

end RoutineWatch.CommandLine
