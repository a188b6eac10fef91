import RoutineWatch.Ordered.Set
import RoutineWatch.Path

/-!
# Changed files and ignored prefixes

Changed files and path prefixes whose changes do not count. Changed paths are kept in
normal form; prefixes are compared letter by letter.

Specification, §§ 3 and 10.5.
-/
namespace RoutineWatch

/-- A set of changed paths, each in normal form. -/
abbrev ChangeSet := TextSet

namespace ChangeSet

/-- Adds a path, whatever way it is spelled. -/
def insertPath (changes : ChangeSet) (p : Path) : ChangeSet := changes.insert p.posix

def ofPaths (paths : List Path) : ChangeSet := paths.foldl insertPath TextSet.empty

end ChangeSet

/-- Path prefixes whose changes never count. -/
structure IgnoreList where
  prefixes : List String
deriving DecidableEq, Repr

/-- Whether a path starts with one of the prefixes. -/
def IgnoreList.ignores (ignore : IgnoreList) (path : String) : Bool :=
  ignore.prefixes.any fun p => p.toList.isPrefixOf path.toList

end RoutineWatch
