import RoutineWatch.Script.Expansion
import RoutineWatch.Script.Program

/-!
# Running scripts

Running scripts and the programs they call. `fuel` bounds how many steps follow one
another, and what runs longer is ended by a signal, so running always comes to an end.

- `Script.run`: runs a command.
- `Script.runText`: runs a script.
-/
namespace RoutineWatch.Script

/-! Built into the shell -/

/-- The signals that end a script, and those that do nothing to it, by name. -/
def signals : List (String × Nat) := [
  ("EXIT", 0), ("HUP", 1), ("INT", 2), ("QUIT", 3), ("ILL", 4), ("TRAP", 5), ("ABRT", 6),
  ("BUS", 7), ("FPE", 8), ("KILL", 9), ("USR1", 10), ("SEGV", 11), ("USR2", 12), ("PIPE", 13),
  ("ALRM", 14), ("TERM", 15), ("STKFLT", 16), ("CHLD", 17), ("CONT", 18), ("STOP", 19),
  ("TSTP", 20), ("TTIN", 21), ("TTOU", 22), ("URG", 23), ("XCPU", 24), ("XFSZ", 25),
  ("VTALRM", 26), ("PROF", 27), ("WINCH", 28), ("IO", 29), ("PWR", 30), ("SYS", 31)]

/-- Signals that do nothing by themselves. -/
def idleSignals : List Nat := [0, 17, 18, 23, 28]

def signal? (text : Text) : Option Nat :=
  match Arithmetic.integer? text with
  | some n => some n.toNat
  | none =>
    let name := if (ofString "SIG").isPrefixOf text then text.drop 3 else text
    (signals.find? fun e => ofString e.1 = name).map (·.2)

def kill (line : Nat) (arguments : List Text) (s : Session) : Session × Flow :=
  let (signal, targets) := match arguments with
    | ['-', 's'] :: name :: targets => (signal? name, targets)
    | ('-' :: name) :: targets => (signal? name, targets)
    | targets => (some 15, targets)
  match signal with
  | none => (s.complainAt line (ofString "kill: Illegal option") |>.done 2, .next)
  | some signal =>
    if targets.contains (ofString (toString processId)) then
      if idleSignals.contains signal then (s.done 0, .next) else (s, .killed signal)
    else (s.complainAt line (ofString "kill: No such process") |>.done 1, .next)

def exit (line : Nat) (flow : Flow) (name : String) (arguments : List Text) (s : Session) :
    Session × Flow :=
  match arguments with
  | [] => (s, flow)
  | n :: _ =>
    if n ≠ [] && n.all Char.isDigit then
      (s.done ((Arithmetic.digitsValue n).toNat % 256), flow)
    else (s.complainAt line (ofString (name ++ ": Illegal number: ") ++ n) |>.done 2, .exit)

def changeDirectory (line : Nat) (arguments : List Text) (s : Session) : Session × Flow :=
  let target := match arguments with
    | [] => (s.value? (ofString "HOME")).getD []
    | directory :: _ => directory
  match s.tree.locate? s.here (Session.path target) with
  | .ok place =>
    if s.tree.node? place = some .directory then ({ s with here := place }.done 0, .next)
    else (s.complainAt line (ofString "cd: can't cd to " ++ target) |>.done 2, .next)
  | .error _ => (s.complainAt line (ofString "cd: can't cd to " ++ target) |>.done 2, .next)

def exportAll (arguments : List Text) (s : Session) : Session × Flow :=
  (arguments.foldl (fun s argument =>
    match assignment? argument with
    | some (name, value) => (s.assign name value).share name
    | none => s.share argument) s |>.done 0, .next)

def setOptions (s : Session) : List Text → Session
  | ['-', '-'] :: arguments => { s with arguments := arguments }
  | ('-' :: options) :: rest =>
    setOptions (if options.contains 'e' then { s with strict := true } else s) rest
  | ('+' :: options) :: rest =>
    setOptions (if options.contains 'e' then { s with strict := false } else s) rest
  | [] => s
  | arguments => { s with arguments := arguments }

def readLine (arguments : List Text) (s : Session) : Session × Flow :=
  let (_, names) := Utility.splitOptions arguments
  let line := s.input.takeWhile (· ≠ 10)
  let status := if s.input.contains 10 then 0 else 1
  let rest := s.input.drop (line.length + 1)
  let text := (ofBytes line).dropWhile fun c => c = ' ' || c = '\t'
  ({ s with input := rest }.assign (names.headD (ofString "REPLY")) text |>.done status, .next)

/-- A number among arguments, or one. -/
def count (arguments : List Text) : Nat :=
  ((arguments.head?.bind Arithmetic.integer?).getD 1).toNat

/-- The commands of the shell that need no others to be run. -/
def builtin? (line : Nat) (name : Text) (arguments : List Text) (s : Session) :
    Option (Session × Flow) :=
  match String.ofList name with
  | ":" => some (s.done 0, .next)
  | "exit" => some (exit line .exit "exit" arguments s)
  | "return" => some (exit line .back "return" arguments s)
  | "break" => some (s.done 0, .leave (count arguments))
  | "continue" => some (s.done 0, .again (count arguments))
  | "cd" => some (changeDirectory line arguments s)
  | "export" => some (exportAll arguments s)
  | "unset" => some ((arguments.foldl Session.unset s).done 0, .next)
  | "set" => some ((setOptions s arguments).done 0, .next)
  | "shift" => some ({ s with arguments := s.arguments.drop (count arguments) }.done 0, .next)
  | "kill" => some (kill line arguments s)
  | "read" => some (readLine arguments s)
  | "umask" => some (s.done 0, .next)
  | "trap" => some (s.done 0, .next)
  | "wait" => some (s.done 0, .next)
  | text =>
    if Utility.builtins.contains text then
      (Utility.ofName? name).map fun utility =>
        let (s, status) := utility arguments s
        (s.done status, .next)
    else none

/-! Redirections -/

def openSink (s : Session) (keep : Bool) (target : Text) : Session × Except Text Sink :=
  match String.ofList target with
  | "/dev/null" => (s, .ok .nowhere)
  | "/dev/stdout" => (s, .ok s.output)
  | "/dev/stderr" => (s, .ok s.errors)
  | _ =>
    let path := Session.path target
    let old := if keep then (s.tree.readBytes s.here path).toOption.getD [] else []
    match s.tree.writeBytes .none s.here path old with
    | (tree, .ok ()) =>
      match tree.locate? s.here path with
      | .ok place => ({ s with tree := tree }, .ok (.file place))
      | .error code => (s, .error (Session.errorText code))
    | (_, .error (.os code)) =>
      (s, .error (ofString "cannot create " ++ target ++ ofString ": " ++
        (if code = SystemError.noEntry then ofString "Directory nonexistent"
          else Session.errorText code)))
    | (_, .error (.other text)) => (s, .error (ofString text))

def setSink (s : Session) (descriptor : Nat) (sink : Sink) : Session :=
  if descriptor = 1 then { s with output := sink }
  else if descriptor = 2 then { s with errors := sink }
  else s

def redirect (s : Session) (r : Redirect) (target : Text) : Session × Except Text Unit :=
  let sink (keep : Bool) : Session × Except Text Unit :=
    match openSink s keep target with
    | (s, .ok sink) => (setSink s r.descriptor sink, .ok ())
    | (s, .error text) => (s, .error text)
  match r.kind with
  | .write => sink false
  | .append => sink true
  | .document => ({ s with input := toBytes target }, .ok ())
  | .read =>
    if target = ofString "/dev/null" then ({ s with input := [] }, .ok ())
    else
      match s.tree.readBytes s.here (Session.path target) with
      | .ok bytes => ({ s with input := bytes }, .ok ())
      | .error _ => (s, .error (ofString "cannot open " ++ target ++ ofString ": No such file"))
  | .duplicate =>
    match target with
    | ['1'] => (setSink s r.descriptor s.output, .ok ())
    | ['2'] => (setSink s r.descriptor s.errors, .ok ())
    | _ => (setSink s r.descriptor .nowhere, .ok ())

/-- Does redirections in order, up to one that fails. -/
def redirectAll (capture : Capture) (s : Session) : List Redirect → Session × Except Text Unit
  | [] => (s, .ok ())
  | r :: rs =>
    match expandField capture r.target s with
    | (s, .error text) => (s, .error text)
    | (s, .ok field) =>
      match redirect s r field.text with
      | (s, .ok ()) => redirectAll capture s rs
      | failed => failed

/-- Whether redirections set what is read. -/
def redirectsInput (redirects : List Redirect) : Bool :=
  redirects.any fun r => r.kind = .read || r.kind = .document

/-! Assignments -/

/-- Expands assignments in order and sets their variables. -/
def assignAll (capture : Capture) (s : Session) :
    List (Text × Word) → Session × Except Text (List (Text × Text))
  | [] => (s, .ok [])
  | (name, w) :: rest =>
    match expandField capture w s with
    | (s, .error text) => (s, .error text)
    | (s, .ok field) =>
      match assignAll capture (s.assign name field.text) rest with
      | (s, .ok values) => (s, .ok ((name, field.text) :: values))
      | failed => failed

/-- Whether a word has the output of a script in it. -/
def hasOutput (w : Word) : Bool :=
  w.any fun
    | .output _ _ => true
    | _ => false

/-- The session of a program that is started: it has the exported variables. -/
def childOf (s : Session) : Session :=
  { s with
    settings := s.settings.filter fun v => s.exported.contains v.1
    functions := []
    status := 0
    strict := false }

/-! Commands -/

/-- What is left of a flow after the loop it leaves; `none` if that goes on. -/
def afterLoop : Flow → Option Flow
  | .next => none
  | .leave n => some (if n ≤ 1 then .next else .leave (n - 1))
  | .again n => if n ≤ 1 then none else some (.again (n - 1))
  | flow => some flow

/-- What is left of a flow outside of a part that ran on its own. -/
def afterSubshell : Flow → Flow
  | .killed signal => .killed signal
  | _ => .next

def settle (r : Session × Flow) : Session × Flow :=
  if r.2 = .next && r.1.strict && r.1.status ≠ 0 then (r.1, .exit) else r

mutual

def run (fuel : Nat) (c : Command) (s : Session) : Session × Flow :=
  match fuel with
  | 0 => (s, .killed tooLong)
  | fuel + 1 =>
    let capture : Capture := fun text s => captureText fuel text s
    let loosely (c : Command) (s : Session) : Session × Flow :=
      let (after, flow) := run fuel c { s with strict := false }
      ({ after with strict := s.strict }, flow)
    match c with
    | .nothing => (s, .next)
    | .simple line assignments words =>
      let complain (s : Session) (text : Text) : Session × Flow :=
        ((s.complainAt line text).done 2, .exit)
      match expandWords capture words s with
      | (s, .error text) => complain s text
      | (expanded, .ok fields) =>
        match assignAll capture expanded assignments with
        | (s, .error text) => complain s text
        | (s, .ok values) =>
          match fields with
          | [] =>
            settle (if assignments.any (hasOutput ·.2) || words.any hasOutput then s else s.done 0,
              .next)
          | name :: arguments =>
            let set := values.foldl (fun s v => s.share v.1) s
            let (after, flow) := call fuel line name arguments set
            let after := values.foldl (fun s v =>
              match expanded.value? v.1 with
              | some old => s.assign v.1 old
              | none => s.unset v.1) after
            settle (if values.isEmpty then after else { after with exported := expanded.exported },
              flow)
    | .pipe first second =>
      let (opened, n) := s.newBuffer
      let (written, flow) := run fuel first { opened with output := .buffer n, strict := false }
      match afterSubshell flow with
      | .next =>
        let back := { written.leaveSubshell s with output := s.output }
        let input := back.input
        let (after, flow) := run fuel second { back with input := written.written n }
        settle ({ after.leaveSubshell s with input := input }, afterSubshell flow)
      | flow => ({ written.leaveSubshell s with output := s.output }, flow)
    | .negate c =>
      let (s, flow) := loosely c s
      (s.done (if s.status = 0 then 1 else 0), flow)
    | .both first second =>
      let (s, flow) := loosely first s
      if flow = .next && s.status = 0 then run fuel second s else (s, flow)
    | .either first second =>
      let (s, flow) := loosely first s
      if flow = .next && s.status ≠ 0 then run fuel second s else (s, flow)
    | .sequence first second =>
      match run fuel first s with
      | (s, .next) => run fuel second s
      | ended => ended
    | .branch condition yes no =>
      match loosely condition s with
      | (s, .next) =>
        if s.status = 0 then run fuel yes (s.done 0) else run fuel no (s.done 0)
      | ended => ended
    | .loop untilTrue condition body => loop fuel untilTrue condition body 0 s
    | .each name items body =>
      match expandWords capture items s with
      | (s, .error text) => ((s.complainAt 1 text).done 2, .exit)
      | (s, .ok fields) => each fuel name fields body (s.done 0)
    | .choose subject arms =>
      match expandField capture subject s with
      | (s, .error text) => ((s.complainAt 1 text).done 2, .exit)
      | (s, .ok field) => choose fuel (toBytes field.text) arms s
    | .subshell body =>
      let (after, flow) := run fuel body s
      settle (after.leaveSubshell s, afterSubshell flow)
    | .redirected line body redirects =>
      let back (after : Session) : Session :=
        { after with
          output := s.output
          errors := s.errors
          input := if redirectsInput redirects then s.input else after.input }
      match redirectAll capture s redirects with
      | (after, .error text) => settle (((back after).complainAt line text).done 2, .next)
      | (ready, .ok ()) =>
        let (after, flow) := run fuel body ready
        (back after, flow)
    | .define name body =>
      ({ s with functions := (name, body) :: s.functions }.done 0, .next)

def loop (fuel : Nat) (untilTrue : Bool) (condition body : Command) (status : Nat)
    (s : Session) : Session × Flow :=
  match fuel with
  | 0 => (s, .killed tooLong)
  | fuel + 1 =>
    match run fuel condition { s with strict := false } with
    | (tested, .next) =>
      let tested := { tested with strict := s.strict }
      if (tested.status = 0) = untilTrue then (tested.done status, .next)
      else
        let (after, flow) := run fuel body tested
        match afterLoop flow with
        | none => loop fuel untilTrue condition body after.status after
        | some flow => (after, flow)
    | (tested, flow) =>
      ({ tested with strict := s.strict }, (afterLoop flow).getD .next)

def each (fuel : Nat) (name : Text) (items : List Text) (body : Command) (s : Session) :
    Session × Flow :=
  match fuel, items with
  | 0, _ => (s, .killed tooLong)
  | _ + 1, [] => (s, .next)
  | fuel + 1, item :: items =>
    let (s, flow) := run fuel body (s.assign name item)
    match afterLoop flow with
    | none => each fuel name items body s
    | some flow => (s, flow)

def choose (fuel : Nat) (subject : Bytes) (arms : List (List Word × Command)) (s : Session) :
    Session × Flow :=
  match fuel, arms with
  | 0, _ => (s, .killed tooLong)
  | _ + 1, [] => (s.done 0, .next)
  | fuel + 1, (patterns, body) :: arms =>
    let (s, matched) := patterns.foldl (fun r pattern =>
      if r.2 then r
      else
        match expandField (fun text s => captureText fuel text s) pattern r.1 with
        | (s, .ok field) => (s, field.pattern.accepts subject)
        | (s, .error _) => (s, false)) (s, false)
    if matched then run fuel body (s.done 0) else choose fuel subject arms s

/-- Runs what a name stands for. -/
def call (fuel line : Nat) (name : Text) (arguments : List Text) (s : Session) :
    Session × Flow :=
  match fuel with
  | 0 => (s, .killed tooLong)
  | fuel + 1 =>
    match builtin? line name arguments s with
    | some ended => ended
    | none =>
      match s.functions.find? fun f => f.1 = name with
      | some (_, body) =>
        let (after, flow) := run fuel body { s with arguments := arguments }
        ({ after with arguments := s.arguments }, if flow = .back then .next else flow)
      | none =>
        match String.ofList name, arguments with
        | "eval", words =>
          let text := List.intercalate [' '] words
          runText fuel (text.count '\n') text (s.done 0)
        | ".", file :: _ =>
          match s.tree.readBytes s.here (Session.path file) with
          | .ok bytes => runText fuel ((ofBytes bytes).count '\n') (ofBytes bytes) (s.done 0)
          | .error _ =>
            ((s.complainAt line (ofString ".: cannot open " ++ file ++
              ofString ": No such file")).done 2, .exit)
        | "exec", [] => (s.done 0, .next)
        | "exec", name :: arguments =>
          match runProgram fuel line name arguments s with
          | (s, .exited status) => (s.done status, .exit)
          | (s, .killed signal) => (s, .killed signal)
        | "command", name :: arguments => call fuel line name arguments s
        | _, _ =>
          match runProgram fuel line name arguments s with
          | (s, .exited status) => (s.done status, .next)
          | (s, .killed signal) => (s.done (128 + signal), .next)

/-- Finds a program and runs it, or says why not. -/
def runProgram (fuel line : Nat) (name : Text) (arguments : List Text) (s : Session) :
    Session × Ending :=
  match fuel with
  | 0 => (s, .killed tooLong)
  | fuel + 1 =>
    let missing (s : Session) : Session × Ending :=
      (s.complainAt line (name ++ ofString ": not found"), .exited 127)
    match Program.find s.tree s.here ((s.value? (ofString "PATH")).getD []) name with
    | .error code =>
      if code = SystemError.denied then
        (s.complainAt line (name ++ ofString ": Permission denied"), .exited 126)
      else missing s
    | .ok (path, program) =>
      match start fuel path program arguments (childOf s) with
      | (after, .ok ending) => (after.leaveSubshell s, ending)
      | (after, .error code) =>
        if code = SystemError.noExec then
          match runShell fuel (path :: arguments) (childOf s) with
          | (after, ending) => (after.leaveSubshell s, ending)
        else missing (after.leaveSubshell s)

def start (fuel : Nat) (path : Text) (program : Program) (arguments : List Text)
    (s : Session) : Session × Except Nat Ending :=
  match fuel with
  | 0 => (s, .ok (.killed tooLong))
  | fuel + 1 =>
    match program with
    | .utility utility =>
      let (s, status) := utility arguments s
      (s, .ok (.exited status))
    | .shell =>
      let (s, ending) := runShell fuel arguments { s with name := path }
      (s, .ok ending)
    | .environment =>
      let s := (arguments.takeWhile fun a => (assignment? a).isSome).foldl (fun s a =>
        match assignment? a with
        | some (name, value) => (s.assign name value).share name
        | none => s) s
      match arguments.dropWhile fun a => (assignment? a).isSome with
      | [] => (s, .ok (.exited 0))
      | name :: arguments =>
        match Program.find s.tree s.here ((s.value? (ofString "PATH")).getD []) name with
        | .ok (path, program) => start fuel path program arguments s
        | .error code =>
          (Utility.fileFault "env" ('\'' :: name ++ ['\'']) (.os code) s,
            .ok (.exited (if code = SystemError.denied then 126 else 127)))
    | .script contents =>
      match Program.interpreter? contents with
      | none => (s, .error SystemError.noExec)
      | some (interpreter, options) =>
        match Program.atPath s.tree s.here (Session.path interpreter) with
        | .error code => (s, .error code)
        | .ok program => start fuel interpreter program (options ++ path :: arguments) s

def runShell (fuel : Nat) (arguments : List Text) (s : Session) : Session × Ending :=
  match fuel with
  | 0 => (s, .killed tooLong)
  | fuel + 1 =>
    let options := arguments.takeWhile fun a => a.head? = some '-' && a.length > 1
    let rest := arguments.drop options.length
    let has (c : Char) : Bool := options.any (·.contains c)
    let s := { s with strict := has 'e' }
    let finish (r : Session × Flow) : Session × Ending :=
      match r.2 with
      | .killed signal => (r.1, .killed signal)
      | _ => (r.1, .exited r.1.status)
    let runAll (text : Text) (s : Session) : Session × Ending :=
      finish (runText fuel (text.count '\n') text (s.done 0))
    if has 'c' then
      match rest with
      | [] => (s.complainAt 0 (ofString "-c requires an argument"), .exited 2)
      | [text] => runAll text { s with arguments := [] }
      | text :: name :: arguments => runAll text { s with name := name, arguments := arguments }
    else
      match rest with
      | [] => runAll (ofBytes s.input) { s with arguments := [], input := [] }
      | file :: arguments =>
        match s.tree.readBytes s.here (Session.path file) with
        | .ok bytes => runAll (ofBytes bytes) { s with name := file, arguments := arguments }
        | .error _ =>
          (s.complainAt 0 (ofString "cannot open " ++ file ++ ofString ": No such file"), .exited 2)

/-- Runs the commands of a text one after the other; `lines` is how many line ends it had
as a whole. -/
def runText (fuel lines : Nat) (text : Text) (s : Session) : Session × Flow :=
  match fuel with
  | 0 => (s, .killed tooLong)
  | fuel + 1 =>
    match readNext lines text with
    | .error fault => ((s.complainAt (1 + lines) fault.message).done 2, .exit)
    | .ok none => (s, .next)
    | .ok (some (c, rest)) =>
      match run fuel c s with
      | (s, .next) => runText fuel lines rest s
      | ended => ended

/-- What a text prints when it is run on its own. -/
def captureText (fuel : Nat) (text : Text) (s : Session) : Session × Text :=
  match fuel with
  | 0 => (s, [])
  | fuel + 1 =>
    let (opened, n) := s.newBuffer
    let (after, _) := runText fuel (text.count '\n') text
      { (opened.done 0) with output := .buffer n, strict := false }
    ({ after.leaveSubshell s with output := s.output }, ofBytes (after.written n))

end

end RoutineWatch.Script
