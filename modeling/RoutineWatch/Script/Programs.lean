import RoutineWatch.Script.Printing
import RoutineWatch.Script.Session
import RoutineWatch.Text.Basic

/-!
# The programs of every system

The programs that scripts find on every system, as far as they work on files and texts.
-/
namespace RoutineWatch.Script

abbrev Utility := List Text → Session → Session × Nat

namespace Utility

/-- Complains in the name of a program. -/
def fault (program : String) (text : Text) (s : Session) : Session :=
  s.complain (ofString (program ++ ": ") ++ text ++ ['\n'])

/-- Complains of a file in the name of a program. -/
def fileFault (program : String) (file : Text) (cause : IoCause) (s : Session) : Session :=
  let reason := match cause with
    | .os code => SystemError.text code
    | .other text => text
  fault program (file ++ ofString (": " ++ reason)) s

/-- The text of a file, or of the input for a hyphen. -/
def source (s : Session) (file : Text) : Except IoCause Bytes × Session :=
  if file = ['-'] then (.ok s.input, { s with input := [] })
  else (s.tree.readBytes s.here (Session.path file), s)

/-- Does something for each argument; the status is the worst of all. -/
def forAll (step : Text → Session → Session × Nat) (arguments : List Text) (s : Session) :
    Session × Nat :=
  arguments.foldl (fun r argument =>
    let (s, status) := step argument r.1
    (s, max r.2 status)) (s, 0)

def splitOptions : List Text → Text × List Text
  | ['-', '-'] :: rest => ([], rest)
  | ('-' :: c :: cs) :: rest =>
    let (options, operands) := splitOptions rest
    (c :: cs ++ options, operands)
  | arguments => ([], arguments)

def echo : Utility := fun arguments s => (s.print (Printing.echo arguments), 0)

def printf : Utility := fun arguments s =>
  match if arguments.head? = some ['-', '-'] then arguments.drop 1 else arguments with
  | [] => (fault "printf" (ofString "usage: printf format [arg ...]") s, 2)
  | form :: arguments =>
    let printed := Printing.printf form arguments
    let s := s.print printed.text
    (printed.faulty.foldl (fun s argument =>
      fault "printf" (argument ++ ofString ": expected numeric value") s) s,
      if printed.faulty.isEmpty then 0 else 1)

def cat : Utility := fun arguments s =>
  let (_, files) := splitOptions arguments
  forAll (fun file s =>
    match source s file with
    | (.ok bytes, s) => (s.write s.output bytes, 0)
    | (.error cause, s) => (fileFault "cat" file cause s, 1))
    (if files.isEmpty then [['-']] else files) s

/-- How deep directories are made. -/
def depthLimit : Nat := 1000

def mkdir : Utility := fun arguments s =>
  let (options, directories) := splitOptions arguments
  forAll (fun directory s =>
    let path := Session.path directory
    let (tree, made) : FileTree × Except IoCause Unit :=
      if options.contains 'p' then s.tree.layDirectories .none s.here depthLimit path
      else
        match s.tree.makeDirectory .none s.here path with
        | .ok tree => (tree, .ok ())
        | .error code => (s.tree, .error (.os code))
    match made with
    | .ok () => ({ s with tree := tree }, 0)
    | .error cause =>
      (fileFault "mkdir" (ofString "cannot create directory '" ++ directory ++ ['\'']) cause s, 1))
    directories s

def removeAll (t : FileTree) (place : Place) : FileTree :=
  (t.below place).foldl (fun t e => t.remove (place ++ e.1)) (t.remove place)

def rm : Utility := fun arguments s =>
  let (options, files) := splitOptions arguments
  let forced := options.contains 'f'
  let deep := options.contains 'r' || options.contains 'R'
  forAll (fun file s =>
    let refused (code : Nat) : Session × Nat :=
      (fileFault "rm" (ofString "cannot remove '" ++ file ++ ['\'']) (.os code) s, 1)
    match s.tree.follow false s.here (Session.path file) with
    | .found place =>
      if s.tree.node? place = some .directory && !deep then refused SystemError.isDirectory
      else ({ s with tree := removeAll s.tree place }, 0)
    | .vacant _ => if forced then (s, 0) else refused SystemError.noEntry
    | .failed code => if forced then (s, 0) else refused code) files s

def store (program : String) (file : Text) (bytes : Bytes) (s : Session) : Session × Nat :=
  match s.tree.writeBytes .none s.here (Session.path file) bytes with
  | (tree, .ok ()) => ({ s with tree := tree }, 0)
  | (_, .error cause) => (fileFault program file cause s, 1)

def touch : Utility := fun arguments s =>
  let (_, files) := splitOptions arguments
  forAll (fun file s =>
    if s.tree.pathExists s.here (Session.path file) then (s, 0) else store "touch" file [] s)
    files s

/-- Where a file goes that is copied or moved to a path. -/
def destination (s : Session) (file target : Text) : Text :=
  if s.tree.isDirectory s.here (Session.path target) then
    match (Session.path file).fileName? with
    | some name => target ++ '/' :: ofBytes name
    | none => target
  else target

def cp : Utility := fun arguments s =>
  let (_, operands) := splitOptions arguments
  let target := operands.getLastD []
  forAll (fun file s =>
    match source s file with
    | (.ok bytes, s) => store "cp" (destination s file target) bytes s
    | (.error cause, s) =>
      (fileFault "cp" (ofString "cannot stat '" ++ file ++ ['\'']) cause s, 1))
    operands.dropLast s

def mv : Utility := fun arguments s =>
  let (_, operands) := splitOptions arguments
  let target := operands.getLastD []
  forAll (fun file s =>
    let goal := s.tree.follow false s.here (Session.path (destination s file target))
    match s.tree.follow false s.here (Session.path file), goal with
    | .found old, .vacant new | .found old, .found new =>
      let moved := s.tree.below old
      let node := (s.tree.node? old).getD .directory
      let tree := (removeAll s.tree old).put new node
      ({ s with tree := moved.foldl (fun t e => t.put (new ++ e.1) e.2) tree }, 0)
    | .found _, .failed code =>
      (fileFault "mv" (ofString "cannot move '" ++ file ++ ['\'']) (.os code) s, 1)
    | _, _ =>
      (fileFault "mv" (ofString "cannot stat '" ++ file ++ ['\'']) (.os SystemError.noEntry) s, 1))
    operands.dropLast s

/-- The lines of some bytes, each with its end. -/
def linesOf (bytes : Bytes) : List Bytes := (Line.atLineFeed (ofBytes bytes)).map toBytes

/-- How much `head` and `tail` take: a number of lines or of bytes. -/
def amount (arguments : List Text) : Int × Bool × List Text :=
  let number (text : Text) : Int := (Arithmetic.integer? text).getD 10
  match arguments with
  | ['-', 'n'] :: n :: files => (number n, false, files)
  | ['-', 'c'] :: n :: files => (number n, true, files)
  | ('-' :: 'n' :: n) :: files => (number n, false, files)
  | ('-' :: 'c' :: n) :: files => (number n, true, files)
  | ('-' :: n) :: files => (if n = [] then 10 else number n, false, if n = [] then arguments else files)
  | files => (10, false, files)

/-- Prints a part of each file. -/
def excerpt (program : String) (lines : Int → List Bytes → List Bytes)
    (bytes : Int → Bytes → Bytes) : Utility := fun arguments s =>
  let (n, byBytes, files) := amount arguments
  forAll (fun file s =>
    match source s file with
    | (.ok contents, s) =>
      (s.write s.output
        (if byBytes then bytes n contents else (lines n (linesOf contents)).flatten), 0)
    | (.error cause, s) =>
      (fileFault program (ofString "cannot open '" ++ file ++ ofString "' for reading") cause s, 1))
    (if files.isEmpty then [['-']] else files) s

/-- The first items, or all but the last ones for a negative number. -/
def front {α : Type} (n : Int) (items : List α) : List α :=
  if n < 0 then items.take (items.length - n.natAbs) else items.take n.toNat

def back {α : Type} (n : Int) (items : List α) : List α := items.drop (items.length - n.natAbs)

def head : Utility := excerpt "head" front front

def tail : Utility := excerpt "tail" back back

def seq : Utility := fun arguments s =>
  let numbers := arguments.filterMap Arithmetic.integer?
  let (first, step, last) : Int × Int × Int := match numbers with
    | [last] => (1, 1, last)
    | [first, last] => (first, 1, last)
    | first :: step :: last :: _ => (first, step, last)
    | [] => (1, 1, 0)
  let count : Nat := if step = 0 then 0 else ((last - first) / step + 1).toNat
  let text := (List.range count).flatMap fun (i : Nat) =>
    ofString (toString (first + step * i)) ++ ['\n']
  (s.print text, 0)

def basename : Utility := fun arguments s =>
  match arguments with
  | [] => (fault "basename" (ofString "missing operand") s, 1)
  | file :: rest =>
    let name := match (Session.path file).parts.getLast? with
      | some name => ofBytes name
      | none => if file.head? = some '/' then ['/'] else ['.']
    let ending := rest.headD []
    let name := if ending ≠ [] && ending.isSuffixOf name && ending.length < name.length then
      name.take (name.length - ending.length) else name
    (s.print (name ++ ['\n']), 0)

def dirname : Utility := fun arguments s =>
  match arguments with
  | [] => (fault "dirname" (ofString "missing operand") s, 1)
  | file :: _ =>
    let directory := match (Session.path file).parent? with
      | some p => if p.bytes = [] then ['.'] else ofBytes p.bytes
      | none => if file.head? = some '/' then ['/'] else ['.']
    (s.print (directory ++ ['\n']), 0)

def pwd : Utility := fun _ s =>
  (s.print ('/' :: List.intercalate ['/'] (s.here.map ofBytes) ++ ['\n']), 0)

def wc : Utility := fun arguments s =>
  let (options, files) := splitOptions arguments
  forAll (fun file s =>
    match source s file with
    | (.ok bytes, s) =>
      let n := if options.contains 'c' then bytes.length else bytes.count 10
      let name := if files.isEmpty then [] else ' ' :: file
      (s.print (ofString (toString n) ++ name ++ ['\n']), 0)
    | (.error cause, s) => (fileFault "wc" file cause s, 1))
    (if files.isEmpty then [['-']] else files) s

/-- Whether some tests of a file hold. -/
def fileTest? (s : Session) (test : Char) (file : Text) : Option Bool :=
  let path := Session.path file
  match test with
  | 'e' | 'r' | 'w' => some (s.tree.pathExists s.here path)
  | 'f' => some (s.tree.isFile s.here path)
  | 'd' => some (s.tree.isDirectory s.here path)
  | 'x' => some (match s.tree.lookup? s.here path with
    | some (.file _ executable) => executable
    | some .directory => true
    | _ => false)
  | 's' => some (match s.tree.lookup? s.here path with
    | some (.file contents _) => !contents.isEmpty
    | some .directory => true
    | _ => false)
  | 'L' | 'h' => some (match s.tree.follow false s.here path with
    | .found place => match s.tree.node? place with
      | some (.link _) => true
      | _ => false
    | _ => false)
  | 'n' => some (file ≠ [])
  | 'z' => some (file = [])
  | _ => none

/-- What an operator of `test` with two operands says; `none` if there is none, or a
number is missing. -/
def compare? (a : Text) (op : String) (b : Text) : Option Bool :=
  let numbers (test : Int → Int → Bool) : Option Bool := do
    let a ← Arithmetic.integer? a
    let b ← Arithmetic.integer? b
    some (test a b)
  match op with
  | "=" | "==" => some (a = b)
  | "!=" => some (a ≠ b)
  | "-eq" => numbers fun a b => a = b
  | "-ne" => numbers fun a b => a ≠ b
  | "-lt" => numbers fun a b => a < b
  | "-le" => numbers fun a b => a ≤ b
  | "-gt" => numbers fun a b => b < a
  | "-ge" => numbers fun a b => b ≤ a
  | _ => none

/-- What a condition says. -/
def condition? (s : Session) : List Text → Option Bool
  | [] => some false
  | [a] => some (a ≠ [])
  | [['!'], a] => some (a = [])
  | [['-', test], file] => fileTest? s test file
  | [a, op, b] =>
    match compare? a (String.ofList op) b with
    | some said => some said
    | none => if a = ['!'] then (condition? s [op, b]).map (!·) else none
  | ['!'] :: rest => (condition? s rest).map (!·)
  | a :: op :: b :: ['-', 'a'] :: rest => do
    some ((← compare? a (String.ofList op) b) && (← condition? s rest))
  | a :: op :: b :: ['-', 'o'] :: rest => do
    some ((← compare? a (String.ofList op) b) || (← condition? s rest))
  | _ => none

def test : Utility := fun arguments s =>
  match condition? s arguments with
  | some true => (s, 0)
  | some false => (s, 1)
  | none => (fault "test" (ofString "unexpected operator") s, 2)

def constant (status : Nat) : Utility := fun _ s => (s, status)

def all : List (String × Utility) := [
  ("echo", echo),
  ("printf", printf),
  ("true", constant 0),
  ("false", constant 1),
  ("test", test),
  ("[", fun arguments => test arguments.dropLast),
  ("pwd", pwd),
  ("cat", cat),
  ("mkdir", mkdir),
  ("rm", rm),
  ("touch", touch),
  ("cp", cp),
  ("mv", mv),
  ("head", head),
  ("tail", tail),
  ("seq", seq),
  ("wc", wc),
  ("basename", basename),
  ("dirname", dirname),
  ("sleep", constant 0)]

/-- The programs that a shell has itself. -/
def builtins : List String := ["echo", "printf", "true", "false", "test", "[", "pwd"]

def ofName? (name : Text) : Option Utility :=
  (all.find? fun e => ofString e.1 = name).map (·.2)

end Utility

end RoutineWatch.Script
