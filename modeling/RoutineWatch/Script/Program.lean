import RoutineWatch.Script.Programs

/-!
# Finding programs

Finding programs by name or by path. A program is one of those that every system has, in
the usual directories, or an executable script of the tree.

There are no programs in machine code here.
-/
namespace RoutineWatch.Script

inductive Program where
  | utility (run : Utility)
  /-- Runs scripts. -/
  | shell
  /-- Runs the program that its arguments name. -/
  | environment
  | script (contents : Bytes)

namespace Program

/-- The directories in which every system has its programs. -/
def systemDirectories : List Place := [["bin"], ["usr", "bin"]].map (·.map Utf8.encode)

/-- The program that every system has under a name. -/
def installed? (name : Text) : Option Program :=
  if ["sh", "dash", "bash"].contains (String.ofList name) then some .shell
  else if name = ofString "env" then some .environment
  else (Utility.ofName? name).map .utility

/-- The program of a path that every system has. -/
def systemProgram? (p : Path) : Option Program :=
  if p.isAbsolute && systemDirectories.contains p.parts.dropLast then
    p.fileName?.bind fun name => installed? (ofBytes name)
  else none

/-- The program of a path. -/
def atPath (t : FileTree) (here : Place) (p : Path) : Except Nat Program :=
  match systemProgram? p with
  | some program => .ok program
  | none =>
    match t.locate? here p with
    | .error code => .error code
    | .ok place =>
      match t.node? place with
      | some (.file contents true) => .ok (.script contents)
      | _ => .error SystemError.denied

def directories (searchPath : Text) : List Text :=
  searchPath.foldr (fun c parts =>
    if c = ':' then [] :: parts
    else match parts with
      | [] => [[c]]
      | part :: parts => (c :: part) :: parts) [[]]

/-- Looks for a program in directories. That one was there but may not be run is said
only if no other one is found. -/
def search (t : FileTree) (here : Place) (name : Text) (denied : Bool) :
    List Text → Except Nat (Text × Program)
  | [] => .error (if denied then SystemError.denied else SystemError.noEntry)
  | directory :: rest =>
    let path := if directory = [] then name else directory ++ '/' :: name
    match atPath t here (Session.path path) with
    | .ok program => .ok (path, program)
    | .error code => search t here name (denied || code = SystemError.denied) rest

/-- The program of a name, with the path it was found by. A name with a slash is a path
itself. -/
def find (t : FileTree) (here : Place) (searchPath name : Text) : Except Nat (Text × Program) :=
  if name = [] then .error SystemError.noEntry
  else if name.contains '/' then
    (atPath t here (Session.path name)).map fun program => (name, program)
  else search t here name false (directories searchPath)

/-- The interpreter that the first line of a script names, with its argument. -/
def interpreter? (contents : Bytes) : Option (Text × List Text) :=
  match ofBytes contents with
  | '#' :: '!' :: rest =>
    let isBlank (c : Char) : Bool := c = ' ' || c = '\t'
    let line := (rest.takeWhile (· ≠ '\n')).dropWhile isBlank
    let line := (line.reverse.dropWhile isBlank).reverse
    let path := line.takeWhile fun c => !isBlank c
    let argument := (line.drop path.length).dropWhile isBlank
    if path = [] then none
    else some (path, if argument = [] then [] else [argument])
  | _ => none

end Program

end RoutineWatch.Script
