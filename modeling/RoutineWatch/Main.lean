import RoutineWatch.Program
import Std.Time.Format

/-!
# The command line on a real machine

A run works on a picture of the files: what stands above and below the top of the workspace,
the configuration that the command line names, and the scripts of the search path. What the
run changed in the picture is put back into the files afterwards. Everything in between is
`Host.run`; only the taking of the picture and the putting back are outside of what is proved
about runs.

Three things do not come into the picture.

- A repository counts as what marks the top of a work tree, but its refs and objects are not
  read, so every ref that is looked up ends in the error for a ref that is not found. Changes
  are told only for a host that is given its repositories as values (`Host.repositories`).
- Programs in machine code are not started, so a documentation tool, a client or an archiver
  has to be a script.
- Directories tagged as caches are passed over, and so is what is below `.git`.
-/
namespace RoutineWatch.Snapshot

/-- The entries of a picture, in the order in which they were found. -/
abbrev Found := Array (Place × FileNode)

/-- No entry lies deeper than a path can be long. -/
def depthLimit : Nat := 4096

/-- The file by which a directory is tagged as a cache. -/
def cacheTag : String := "CACHEDIR.TAG"

/-- Names that are never looked into. -/
def passedOver : List String := [".git"]

/-- The place of an absolute path. -/
def placeOf (path : String) : Place := (Path.ofString path).parts

def textOf (place : Place) : String := (Path.ofPlace place).display

/-- How a script starts. -/
def scriptMark : Bytes := Utf8.encode "#!"

/-- What stands at an entry of a directory; `none` for what is no file, no directory and
no link that leads somewhere. -/
def nodeOf (entry : IO.FS.DirEntry) : IO (Option FileNode) := do
  try
    match (← entry.path.symlinkMetadata).type with
    | .dir => return some .directory
    | .file =>
      let contents := (← IO.FS.readBinFile entry.path).toList
      return some (.file contents (scriptMark.isPrefixOf contents))
    | .symlink => return some (.link (.ofString (← IO.FS.realPath entry.path).toString))
    | .other => return none
  catch _ => return none

/-- The entries of a directory, by name; none if it cannot be read. -/
def entriesOf (dir : IO.FS.DirEntry) : IO (Array IO.FS.DirEntry) := do
  try
    return (← dir.path.readDir).qsort fun a b => a.fileName < b.fileName
  catch _ => return #[]

/-- Adds what stands below a directory. -/
def addBelow : Nat → IO.FS.DirEntry → Found → IO Found
  | 0, _, found => return found
  | depth + 1, dir, found => do
    let entries ← entriesOf dir
    if entries.any fun e => e.fileName = cacheTag then return found
    let mut found := found
    for entry in entries do
      if let some node ← nodeOf entry then
        found := found.push (placeOf entry.path.toString, node)
        if node = .directory && !passedOver.contains entry.fileName then
          found ← addBelow depth entry found
    return found

/-- A directory, as an entry of another one. -/
def entryAt (place : Place) : IO.FS.DirEntry :=
  ⟨textOf place.dropLast, (place.getLast?.map Utf8.lossy).getD "."⟩

/-- Adds the directories on the way to a place, and the place. -/
def addWay (place : Place) (found : Found) : Found :=
  (List.range place.length).foldl (fun found n =>
    let above := place.take (n + 1)
    if found.any fun e => e.1 = above then found else found.push (above, .directory)) found

/-- Whether an entry is a script, by its first bytes. -/
def isScript (entry : IO.FS.DirEntry) : IO Bool := do
  try
    let file ← IO.FS.Handle.mk entry.path .read
    return (← file.read scriptMark.length.toUSize).toList = scriptMark
  catch _ => return false

def addScripts (place : Place) (found : Found) : IO Found := do
  let mut found := found
  for entry in ← entriesOf (entryAt place) do
    if ← isScript entry then
      if let some node ← nodeOf entry then
        found := found.push (place ++ [Utf8.encode entry.fileName], node)
  return found

/-- Whether a directory holds a name. -/
def holds (place : Place) (name : String) : IO Bool := do
  return (← entriesOf (entryAt place)).any fun e => e.fileName = name

/-- The top of a workspace: the nearest directory that holds a configuration or a
repository, or else the directory itself. -/
def topOf (here : Place) : IO Place := do
  for place in Repository.placesUp here do
    if (← holds place Config.fileName) || (← holds place ".git") then return place
  return here

/-- The picture for a run in a directory that uses other directories too. -/
def take (here : Place) (others scripts : List Place) : IO FileTree := do
  let mut tops : List Place := []
  for place in (← topOf here) :: others do
    unless tops.any fun top => top.isPrefixOf place do
      tops := place :: tops.filter fun top => !place.isPrefixOf top
  let mut found : Found := #[]
  for top in tops do
    found ← addBelow depthLimit (entryAt top) (addWay top found)
  for place in scripts do
    unless tops.any (fun top => top.isPrefixOf place) ||
        Script.Program.systemDirectories.contains place do
      found ← addScripts place (addWay place found)
  return ⟨found.toList⟩

/-- Puts a node into the files. A link is not made. -/
def store (place : Place) : FileNode → IO Unit
  | .directory => IO.FS.createDirAll (textOf place)
  | .file contents _ => IO.FS.writeBinFile (textOf place) ⟨contents.toArray⟩
  | .link _ => return ()

/-- Takes a node out of the files. -/
def discard (place : Place) : FileNode → IO Unit
  | .directory => IO.FS.removeDirAll (textOf place)
  | _ => IO.FS.removeFile (textOf place)

/-- Brings the files from one picture to another one. -/
def restore (before after : FileTree) : IO Unit := do
  for (place, node) in before.entries do
    if (after.node? place).isNone then discard place node
  for (place, node) in after.entries do
    unless before.node? place = some node do store place node

end Snapshot

namespace Host

/-- The variables that a run can depend on. -/
def knownVariables : List String :=
  ["PATH", "HOME", "PWD", "NO_COLOR", "COLOR", "CI", refVariable, Help.configVariable, logVariable]

/-- The directories of a search path. -/
def searchPlaces (settings : List (String × String)) : List Place :=
  match settings.find? fun v => v.1 = "PATH" with
  | some (_, dirs) => ((dirs.splitOn ":").filter fun dir => dir.startsWith "/").map Snapshot.placeOf
  | none => []

/-- The directory of the configuration that a command line names, if it is there. -/
def configPlaces : Request → IO (List Place)
  | .run ⟨some config, _⟩ => do
    try
      return [(Snapshot.placeOf (← IO.FS.realPath config).toString).dropLast]
    catch _ => return []
  | _ => return []

/-- The repositories in the directories on the way to a place, without refs and objects. -/
def repositoriesOf (here : Place) : IO (List Repository) := do
  let mut found : List Repository := []
  for place in Repository.placesUp here do
    let gitDir := place ++ [Repository.markName]
    if ← ["HEAD", "objects", "refs"].allM fun name => Snapshot.holds gitDir name then
      found := ⟨gitDir, false, [], []⟩ :: found
  return found

/-- The machine that the program was started on. -/
def current (arguments : List String) : IO Host := do
  let here := Snapshot.placeOf (← IO.FS.realPath (← IO.currentDir)).toString
  let mut settings : List (String × String) := []
  for name in knownVariables do
    if let some value ← IO.getEnv name then settings := (name, value) :: settings
  let request := CommandLine.read (settings.lookup Help.configVariable) arguments
  let tree ← Snapshot.take here (← configPlaces request) (searchPlaces settings)
  let terminal ← (← IO.getStdout).isTty
  return ⟨{ tree, here, settings }, ← repositoriesOf here, terminal⟩

end Host

end RoutineWatch

open RoutineWatch in
/-- Runs the program and ends with its exit status. -/
def main (arguments : List String) : IO UInt32 := do
  let host ← Host.current arguments
  let report := host.run arguments
  Snapshot.restore host.machine.tree report.tree
  let now := Std.Time.DateTime.ofTimestamp (← Std.Time.Timestamp.now) .UTC
  let time := now.format "uuuu-MM-dd'T'HH:mm:ss.SSSSSS'Z'"
  (← IO.getStdout).write ⟨report.stdout.toArray⟩
  (← IO.getStderr).write ⟨(report.stderr host.logFilter host.hasColoredLog time).toArray⟩
  return report.exitCode.value.toUInt32
