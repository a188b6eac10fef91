import Mathlib.Data.List.Induction
import RoutineWatch.Proofs.Decode.Rows
import RoutineWatch.Proofs.FileTree.Paths
import RoutineWatch.Proofs.Path.Joining

/-!
# Going down a tree

A tree as a file system holds one: each entry stands in a directory under a proper name and
is listed once. So what stands below a directory is reached by its names, and is read there
by the directory's path with these names after it.

- `FileTree.WellFormed`: such a tree.
- `FileTree.WellFormed.locate?_under`: the path of what is below a directory leads there.
-/
namespace RoutineWatch.FileTree
open RoutineWatch.Path (IsName)

/-- A tree as a file system holds one. -/
structure WellFormed (t : FileTree) : Prop where
  /-- No place is listed twice. -/
  once : (t.entries.map (·.1)).Nodup
  /-- Every entry has a name in a directory. -/
  placed : ∀ e ∈ t.entries, ∃ parent name, e.1 = parent ++ [name] ∧ IsName name ∧
    t.node? parent = some .directory

theorem placed_iff {t : FileTree} {place : Place} :
    (∃ parent name, place = parent ++ [name] ∧ IsName name ∧ t.node? parent = some .directory) ↔
      place ≠ [] ∧ IsName (place.getLast?.getD []) ∧ t.node? place.dropLast = some .directory := by
  constructor
  · intro placed
    obtain ⟨parent, name, rfl, proper, inside⟩ := placed
    refine ⟨List.append_ne_nil_of_right_ne_nil parent (List.cons_ne_nil name []), ?_, ?_⟩
    · rwa [List.getLast?_concat]
    · rwa [List.dropLast_concat]
  · intro placed
    obtain ⟨below, proper, inside⟩ := placed
    refine ⟨place.dropLast, place.getLast below, (List.dropLast_append_getLast below).symm, ?_,
      inside⟩
    rwa [List.getLast?_eq_some_getLast below] at proper

instance (t : FileTree) : Decidable t.WellFormed :=
  decidable_of_iff ((t.entries.map (·.1)).Nodup ∧ ∀ e ∈ t.entries, e.1 ≠ [] ∧
      IsName (e.1.getLast?.getD []) ∧ t.node? e.1.dropLast = some .directory)
    ⟨fun ⟨once, placed⟩ => ⟨once, fun e entry => placed_iff.2 (placed e entry)⟩,
      fun formed => ⟨formed.once, fun e entry => placed_iff.1 (formed.placed e entry)⟩⟩

section
variable {t : FileTree} {place : Place} {node : FileNode}

theorem entry_of_node? (below : place ≠ []) (stands : t.node? place = some node) :
    (place, node) ∈ t.entries := by
  unfold node? at stands
  rw [if_neg below] at stands
  obtain ⟨e, found, same⟩ := Option.map_eq_some_iff.1 stands
  have here : e.1 = place := by simpa using List.find?_some found
  rw [← here, ← same]
  exact List.mem_of_find?_eq_some found

/-- What stands somewhere stands in a directory, under a proper name. -/
theorem WellFormed.parent (formed : t.WellFormed) {parent : Place} {name : Bytes}
    (stands : t.node? (parent ++ [name]) = some node) :
    IsName name ∧ t.node? parent = some .directory := by
  obtain ⟨above, own, whole, proper, inside⟩ :=
    formed.placed _ (entry_of_node? (by simp) stands)
  obtain ⟨rfl, same⟩ := List.append_inj' whole rfl
  cases same
  exact ⟨proper, inside⟩

/-- All names on the way to what stands somewhere are proper. -/
theorem WellFormed.names (formed : t.WellFormed) (stands : t.node? place = some node) :
    ∀ name ∈ place, IsName name := by
  induction place using List.reverseRecOn generalizing node with
  | nil => simp
  | append_singleton parent name ih =>
    obtain ⟨proper, inside⟩ := formed.parent stands
    intro other member
    rcases List.mem_append.1 member with above | own
    · exact ih inside other above
    · rw [List.mem_singleton.1 own]
      exact proper

/-- All places on the way are directories. -/
theorem WellFormed.above (formed : t.WellFormed) {top rest : Place} (more : rest ≠ [])
    (stands : t.node? (top ++ rest) = some node) : t.node? top = some .directory := by
  induction rest using List.reverseRecOn generalizing node with
  | nil => exact absurd rfl more
  | append_singleton front name ih =>
    rw [← List.append_assoc] at stands
    obtain ⟨_, inside⟩ := formed.parent stands
    by_cases last : front = []
    · rwa [last, List.append_nil] at inside
    · exact ih last inside

/-- The names below a place lead down from it. -/
theorem WellFormed.leads (formed : t.WellFormed) {top rest : Place} (links : Nat)
    (stands : t.node? (top ++ rest) = some node) (plain : ∀ target, node ≠ .link target) :
    Leads t true links top rest (.found (top ++ rest)) := by
  induction rest generalizing top with
  | nil =>
    rw [List.append_nil]
    exact .done
  | cons name rest ih =>
    have whole : top ++ name :: rest = top ++ [name] ++ rest := by simp
    have inside := formed.above (List.cons_ne_nil name rest) stands
    have proper := formed.names stands name (by simp)
    rw [whole] at stands ⊢
    obtain ⟨next, there, direct⟩ : ∃ next, t.node? (top ++ [name]) = some next ∧
        ∀ target, next ≠ .link target := by
      by_cases last : rest = []
      · rw [last, List.append_nil] at stands
        exact ⟨node, stands, plain⟩
      · exact ⟨.directory, formed.above last stands, fun _ => FileNode.noConfusion⟩
    exact .entry inside ⟨proper.notDot, proper.notDotDot⟩ there direct (ih stands)

end

/-- A walk can go on where another one ends. -/
theorem Leads.append {t : FileTree} {links : Nat} {here middle : Place} {ahead rest : List Bytes}
    {w : Walked} (first : Leads t true links here ahead (.found middle))
    (second : ∀ left, Leads t true left middle rest w) :
    Leads t true links here (ahead ++ rest) w := by
  generalize ends : Walked.found middle = goal at first
  induction first with
  | done =>
    cases ends
    exact second _
  | dot inside _ ih => exact .dot inside (ih ends)
  | dotDot inside _ ih => exact .dotDot inside (ih ends)
  | vacant => cases ends
  | lastLink _ _ _ stop => cases stop
  | link inside name link go _ ih =>
    refine .link inside name link (fun _ => rfl) ?_
    have more := ih ends
    rwa [List.append_assoc] at more
  | entry inside name stands plain _ ih => exact .entry inside name stands plain (ih ends)

end RoutineWatch.FileTree
