import RoutineWatch.Error
import RoutineWatch.FileTree.Walk

/-!
# Reading and writing files

Reading and writing by path, with the errors that the operating system gives. What the tree
itself excludes is an error of its own: a part that is missing, a file where a directory
should be, a directory where a file should be. What it does not show (a permission that is
missing, a disk that is full, a file in use) is told by `FileTree.Faults`, which decides of
each write whether it goes through, does not begin, or breaks off.

- `FileTree.readText`: the text of a file.
- `FileTree.writeBytes`: a file is written, and what is left of it when that fails.
- `FileTree.layDirectories`: a directory is made, with those on the way to it.

Reading is refused for the tree's own reasons alone; a file that may not be read does not come
up.
-/
namespace RoutineWatch.FileTree

/-- What goes wrong when a file is written. -/
inductive WriteFault where
  /-- The file is not opened, and stays as it was. -/
  | unopened (cause : IoCause)
  /-- The file is emptied and takes the first bytes, as many as are kept. -/
  | brokenOff (kept : Nat) (cause : IoCause)
deriving DecidableEq, Repr

/-- What a file system refuses where the tree itself would allow it: for want of a
permission or of space, or because a file is in use. It may depend on all that stands in
the tree, on the place and on what is written there. -/
structure Faults where
  /-- The error number of a directory that is not made. -/
  directory : FileTree → Place → Option Nat
  file : FileTree → Place → Bytes → Option WriteFault

/-- A file system that refuses nothing. -/
def Faults.none : Faults := ⟨fun _ _ => .none, fun _ _ _ => .none⟩

def notText : String := "stream did not contain valid UTF-8"

def readBytes (t : FileTree) (cwd : Place) (p : Path) : Except IoCause Bytes :=
  match t.locate? cwd p with
  | .error code => .error (.os code)
  | .ok place =>
    match t.node? place with
    | some (.file contents _) => .ok contents
    | _ => .error (.os SystemError.isDirectory)

def readText (t : FileTree) (cwd : Place) (p : Path) : Except IoCause String := do
  let bytes ← t.readBytes cwd p
  match Utf8.decode? bytes with
  | .ok text => .ok text
  | .error _ => .error (.other notText)

/-- The place that a file of this path is written to, and whether what stands there can be
executed. A path with a slash at its end names no file. -/
def filePlace (t : FileTree) (cwd : Place) (p : Path) : Except IoCause (Place × Bool) :=
  if p.bytes.getLast? = some slash then
    match t.follow false cwd p.trimEnd with
    | .failed code => .error (.os code)
    | _ => .error (.os SystemError.isDirectory)
  else
    match t.follow true cwd p with
    | .failed code => .error (.os code)
    | .vacant place => .ok (place, false)
    | .found place =>
      match t.node? place with
      | some (.file _ executable) => .ok (place, executable)
      | _ => .error (.os SystemError.isDirectory)

/-- Writes a file, which is made if it is not there. The tree is given back also when that
fails: a write that breaks off leaves the start of the contents. -/
def writeBytes (t : FileTree) (faults : Faults) (cwd : Place) (p : Path) (contents : Bytes) :
    FileTree × Except IoCause Unit :=
  match t.filePlace cwd p with
  | .error cause => (t, .error cause)
  | .ok (place, executable) =>
    match faults.file t place contents with
    | none => (t.put place (.file contents executable), .ok ())
    | some (.unopened cause) => (t, .error cause)
    | some (.brokenOff kept cause) =>
      (t.put place (.file (contents.take kept) executable), .error cause)

/-- The place at which a directory of this path would be made. -/
def newPlace (t : FileTree) (cwd : Place) (p : Path) : Except Nat Place :=
  let parts := (Path.pieces p.bytes).filter (· ≠ [])
  match parts.getLast? with
  | none => .error (if p.isAbsolute then SystemError.present else SystemError.noEntry)
  | some name =>
    let start := if p.isAbsolute then [] else cwd
    if name = dot || name = dotDot then
      match t.walk true linkLimit start parts with
      | .found _ => .error SystemError.present
      | .vacant _ => .error SystemError.noEntry
      | .failed code => .error code
    else
      match t.walk true linkLimit start parts.dropLast with
      | .vacant _ => .error SystemError.noEntry
      | .failed code => .error code
      | .found parent =>
        if t.node? parent ≠ some .directory then .error SystemError.notDirectory
        else if (t.node? (parent ++ [name])).isSome then .error SystemError.present
        else .ok (parent ++ [name])

def makeDirectory (t : FileTree) (faults : Faults) (cwd : Place) (p : Path) :
    Except Nat FileTree :=
  match t.newPlace cwd p with
  | .error code => .error code
  | .ok place =>
    match faults.directory t place with
    | none => .ok (t.put place .directory)
    | some code => .error code

/-- Makes a directory and those on the way to it, as far as it gets: the tree is given back
also when it fails. One that is there already is fine. `fuel` bounds how far up a missing
directory is looked for. -/
def layDirectories (t : FileTree) (faults : Faults) (cwd : Place) (fuel : Nat) (p : Path) :
    FileTree × Except IoCause Unit :=
  if p.bytes = [] then (t, .ok ())
  else
    match t.makeDirectory faults cwd p with
    | .ok t => (t, .ok ())
    | .error code =>
      if code ≠ SystemError.noEntry then
        (t, if t.isDirectory cwd p then .ok () else .error (.os code))
      else
        match fuel, p.parent? with
        | fuel + 1, some parent =>
          match t.layDirectories faults cwd fuel parent with
          | (t, .error cause) => (t, .error cause)
          | (t, .ok ()) =>
            match t.makeDirectory faults cwd p with
            | .ok t => (t, .ok ())
            | .error code => (t, if t.isDirectory cwd p then .ok () else .error (.os code))
        | _, _ => (t, .error (.other "failed to create whole tree"))

end RoutineWatch.FileTree
