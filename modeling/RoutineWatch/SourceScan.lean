import RoutineWatch.Extraction
import RoutineWatch.FileTree.Access
import RoutineWatch.Log

/-!
# The sources of the architectures

The sources of the architectures: every file below a directory whose name has the right
extension, hidden or not. Links are not followed on the way.

- `SourceScan.load`: all of them, by path.

Specification, § 10.4.
-/
namespace RoutineWatch.SourceScan

def sourceExtension : Bytes := Utf8.encode "rs"

/-- Whether a node of this name is a source file. -/
def isSource (name : Bytes) : FileNode → Bool
  | .file _ _ => extension? name = some sourceExtension
  | _ => false

/-- The source files below a place with their contents, in the order of a walk. -/
def sourcesBelow (t : FileTree) (top : Place) : List (Place × Bytes) :=
  let found := (t.below top).filterMap fun e =>
    match e.1.getLast?, e.2 with
    | some name, .file contents executable =>
      if isSource name (.file contents executable) then some (e.1, contents) else none
    | _, _ => none
  found.mergeSort fun a b => !placeLess b.1 a.1

/-- A source file's path from the root, in normal form. -/
def relativeName (root file : Path) : String := ((file.stripPrefix? root).getD file).posix

/-- Reads a source file of a directory. -/
def readSource (root base : Path) (entry : Place × Bytes) : Except Error SourceFile :=
  let file := entry.1.foldl Path.child base
  match Utf8.decode? entry.2 with
  | .ok text => .ok ⟨relativeName root file, text⟩
  | .error _ => .error (.io file (.other FileTree.notText))

/-- All source files of `dir` below the root, by path. A directory that is not there has
none. -/
def load (t : FileTree) (here : Place) (root : Path) (dir : String) :
    Except Error (List SourceFile) × List Event :=
  let base := root.join (Path.ofString dir)
  match t.locate? here base with
  | .ok top =>
    if t.node? top = some .directory then
      (((sourcesBelow t top).mapM (readSource root base)).map fun files =>
        files.mergeSort fun a b => !(b.path < a.path), [])
    else (.ok [], [.debug (base.display ++ " does not exist, skipping scan")])
  | .error _ => (.ok [], [.debug (base.display ++ " does not exist, skipping scan")])

end RoutineWatch.SourceScan
