import Mathlib.Logic.Relation
import RoutineWatch.FileTree.Access
import RoutineWatch.Proofs.FileTree.Walk

/-!
# How a tree changes under a run that writes files

Such a run makes directories where nothing stands and writes files at some places; it moves
nothing and takes nothing away. What a tree has is kept then: a directory stays a directory,
a link keeps its target, and a file that is not written keeps its contents. Hence a path that
leads somewhere leads there still.

- `FileTree.Changes`: what such a run does, change by change.
- `FileTree.Changes.leaves`: what it leaves of a tree, place by place.
- `FileTree.Changes.contents?_eq`: a file that is not written keeps its contents.
- `FileTree.Leads.kept`: a walk that led to an entry leads to it still.
-/
namespace RoutineWatch.FileTree

/-- What a regular file at a place holds. -/
def contents? (t : FileTree) (place : Place) : Option Bytes :=
  match t.node? place with
  | some (.file contents _) => some contents
  | _ => none

theorem contents?_eq_some_iff {t : FileTree} {place : Place} {contents : Bytes} :
    t.contents? place = some contents ↔
      ∃ executable, t.node? place = some (.file contents executable) := by
  unfold contents?
  split
  · next node => simp [node]
  · next other =>
    simp only [reduceCtorEq, false_iff, not_exists]
    intro executable node
    exact other _ _ node

/-! What stands where -/

theorem node?_root (t : FileTree) : t.node? [] = some .directory := rfl

/-- Where nothing stands there is no entry. -/
theorem not_mem_of_vacant {t : FileTree} {place : Place} (vacant : t.node? place = none)
    {e : Place × FileNode} (member : e ∈ t.entries) : e.1 ≠ place := by
  unfold node? at vacant
  split at vacant
  · cases vacant
  · rw [Option.map_eq_none_iff, List.find?_eq_none] at vacant
    simpa using vacant e member

theorem ne_root_of_vacant {t : FileTree} {place : Place} (vacant : t.node? place = none) :
    place ≠ [] := by
  rintro rfl
  cases vacant

/-- The root is no place for a file. -/
theorem ne_root_of_free {t : FileTree} {place : Place} {executable : Bool}
    (free : t.node? place = none ∨ ∃ old, t.node? place = some (.file old executable)) :
    place ≠ [] := by
  rintro rfl
  rcases free with vacant | ⟨old, stands⟩
  · cases vacant
  · cases stands

/-- Replacing the entries of a place leaves those of other places. -/
theorem find?_replaced (entries : List (Place × FileNode)) (place q : Place) (node : FileNode) :
    (entries.map fun e => if e.1 = place then (place, node) else e).find? (fun e => e.1 = q) =
      (entries.find? fun e => e.1 = q).map fun e => if q = place then (place, node) else e := by
  induction entries with
  | nil => rfl
  | cons e entries ih =>
    rw [List.map_cons, List.find?_cons, List.find?_cons, ih]
    by_cases here : e.1 = place
    · by_cases same : place = q <;> simp [here, same, eq_comm]
    · by_cases same : e.1 = q
      · have other : q ≠ place := same ▸ here
        simp [same, other]
      · simp [here, same]

theorem node?_put (t : FileTree) {place : Place} (below : place ≠ []) (node : FileNode)
    (q : Place) : (t.put place node).node? q = if q = place then some node else t.node? q := by
  by_cases root : q = []
  · subst q
    rw [node?_root, node?_root, if_neg (Ne.symm below)]
  · unfold put node?
    simp only [if_neg root]
    by_cases present : t.entries.any (fun e => e.1 = place) = true
    · rw [if_pos present]
      dsimp only
      rw [find?_replaced]
      by_cases same : q = place
      · subst q
        have found : (t.entries.find? fun e => e.1 = place).isSome = true := by
          rw [List.find?_isSome]
          simpa using present
        obtain ⟨e, entry⟩ := Option.isSome_iff_exists.1 found
        rw [entry]
        simp
      · simp [same]
    · rw [if_neg present]
      dsimp only
      rw [List.find?_append]
      by_cases same : q = place
      · subst q
        have none : (t.entries.find? fun e => e.1 = place) = Option.none := by
          rw [List.find?_eq_none]
          intro e member here
          exact present (List.any_eq_true.2 ⟨e, member, here⟩)
        simp [none]
      · simp [same, Ne.symm same]

/-! Changes -/

/-- One change by a run that writes files: a directory where nothing stands, or a file at
one of the places it writes to, new or with new contents. -/
inductive Change (written : Place → Prop) : FileTree → FileTree → Prop
  | directory {t : FileTree} {place : Place} (vacant : t.node? place = none) :
      Change written t (t.put place .directory)
  | file {t : FileTree} {place : Place} {contents : Bytes} {executable : Bool}
      (here : written place)
      (free : t.node? place = none ∨ ∃ old, t.node? place = some (.file old executable)) :
      Change written t (t.put place (.file contents executable))

/-- What a run that writes files does to a tree. -/
abbrev Changes (written : Place → Prop) : FileTree → FileTree → Prop :=
  Relation.ReflTransGen (Change written)

/-- What such a run leaves of what stood at a place. -/
def Leaves (written : Prop) : Option FileNode → Option FileNode → Prop
  | some (.file contents executable), after =>
    ∃ new, after = some (.file new executable) ∧ (new = contents ∨ written)
  | some node, after => after = some node
  | none, after => after = none ∨ after = some .directory ∨
    written ∧ ∃ contents executable, after = some (.file contents executable)

theorem Leaves.refl (written : Prop) (node : Option FileNode) : Leaves written node node := by
  cases node with
  | none => exact Or.inl rfl
  | some node =>
    cases node with
    | directory => rfl
    | link target => rfl
    | file contents executable => exact ⟨contents, rfl, Or.inl rfl⟩

theorem Leaves.trans {written : Prop} {a b c : Option FileNode} (first : Leaves written a b)
    (second : Leaves written b c) : Leaves written a c := by
  cases a with
  | none =>
    rcases first with rfl | rfl | ⟨here, contents, executable, rfl⟩
    · exact second
    · exact Or.inr (Or.inl second)
    · obtain ⟨new, rfl, _⟩ := second
      exact Or.inr (Or.inr ⟨here, new, executable, rfl⟩)
  | some node =>
    cases node with
    | directory =>
      cases (first : b = some .directory)
      exact second
    | link target =>
      cases (first : b = some (.link target))
      exact second
    | file contents executable =>
      obtain ⟨new, rfl, once⟩ := first
      obtain ⟨last, rfl, twice⟩ := second
      refine ⟨last, rfl, ?_⟩
      rcases twice with rfl | here
      · exact once
      · exact Or.inr here

section
variable {written : Place → Prop} {t t' : FileTree}

theorem Change.leaves (change : Change written t t') (q : Place) :
    Leaves (written q) (t.node? q) (t'.node? q) := by
  cases change with
  | @directory place vacant =>
    rw [node?_put t (ne_root_of_vacant vacant)]
    by_cases same : q = place
    · subst q
      rw [if_pos rfl, vacant]
      exact Or.inr (Or.inl rfl)
    · rw [if_neg same]
      exact Leaves.refl _ _
  | @file place contents executable here free =>
    rw [node?_put t (ne_root_of_free free)]
    by_cases same : q = place
    · subst q
      rw [if_pos rfl]
      rcases free with vacant | ⟨old, stands⟩
      · rw [vacant]
        exact Or.inr (Or.inr ⟨here, contents, executable, rfl⟩)
      · rw [stands]
        exact ⟨contents, rfl, Or.inr here⟩
    · rw [if_neg same]
      exact Leaves.refl _ _

/-- What a run that writes files leaves of a tree, place by place. -/
theorem Changes.leaves (changes : Changes written t t') (q : Place) :
    Leaves (written q) (t.node? q) (t'.node? q) := by
  induction changes with
  | refl => exact Leaves.refl _ _
  | tail _ change ih => exact ih.trans (change.leaves q)

theorem Change.mono {other : Place → Prop} (wider : ∀ place, written place → other place)
    (change : Change written t t') : Change other t t' := by
  cases change with
  | directory vacant => exact .directory vacant
  | file here free => exact .file (wider _ here) free

theorem Changes.mono {other : Place → Prop} (wider : ∀ place, written place → other place)
    (changes : Changes written t t') : Changes other t t' :=
  changes.lift id fun _ _ => Change.mono wider

/-- A file that is not written keeps its contents, and none comes up. -/
theorem Changes.contents?_eq (changes : Changes written t t') {place : Place}
    (other : ¬ written place) : t'.contents? place = t.contents? place := by
  have left := changes.leaves place
  unfold contents?
  cases before : t.node? place with
  | none =>
    rw [before] at left
    rcases left with after | after | ⟨here, _⟩
    · rw [after]
    · rw [after]
    · exact absurd here other
  | some node =>
    rw [before] at left
    cases node with
    | directory => rw [show t'.node? place = some .directory from left]
    | link target => rw [show t'.node? place = some (.link target) from left]
    | file contents executable =>
      obtain ⟨new, after, rfl | here⟩ := left
      · rw [after]
      · exact absurd here other

end

/-! Paths -/

/-- A tree has all directories and links of another one, and files where it has files. -/
def Keeps (t t' : FileTree) : Prop := ∀ place, Leaves True (t.node? place) (t'.node? place)

theorem Changes.keeps {written : Place → Prop} {t t' : FileTree} (changes : Changes written t t') :
    Keeps t t' := by
  intro place
  exact (changes.mono fun _ _ => trivial).leaves place

section
variable {t t' : FileTree} (keeps : Keeps t t')
include keeps

theorem Keeps.directory {place : Place} (stands : t.node? place = some .directory) :
    t'.node? place = some .directory := by
  have left := keeps place
  rwa [stands] at left

theorem Keeps.link {place : Place} {target : Path} (stands : t.node? place = some (.link target)) :
    t'.node? place = some (.link target) := by
  have left := keeps place
  rwa [stands] at left

theorem Keeps.file {place : Place} {contents : Bytes} {executable : Bool}
    (stands : t.node? place = some (.file contents executable)) :
    ∃ new, t'.node? place = some (.file new executable) := by
  have left := keeps place
  rw [stands] at left
  obtain ⟨new, after, _⟩ := left
  exact ⟨new, after⟩

theorem Keeps.isSome {place : Place} (stands : (t.node? place).isSome) :
    (t'.node? place).isSome := by
  obtain ⟨node, stands⟩ := Option.isSome_iff_exists.1 stands
  rw [Option.isSome_iff_exists]
  cases node with
  | directory => exact ⟨_, keeps.directory stands⟩
  | link target => exact ⟨_, keeps.link stands⟩
  | file contents executable =>
    obtain ⟨new, after⟩ := keeps.file stands
    exact ⟨_, after⟩

theorem Keeps.plain {place : Place} {node : FileNode} (stands : t.node? place = some node)
    (plain : ∀ target, node ≠ .link target) :
    ∃ after, t'.node? place = some after ∧ ∀ target, after ≠ .link target := by
  cases node with
  | directory => exact ⟨.directory, keeps.directory stands, plain⟩
  | link target => exact absurd rfl (plain target)
  | file contents executable =>
    obtain ⟨new, after⟩ := keeps.file stands
    exact ⟨_, after, fun _ => FileNode.noConfusion⟩

/-- A walk that led to an entry leads to it still. One that led to a vacant place leads to
the file that stands there now. -/
theorem Leads.kept {last : Bool} {links : Nat} {here q : Place} {parts : List Bytes} {w : Walked}
    (leads : Leads t last links here parts w)
    (ends : w = .found q ∨
      w = .vacant q ∧ ∃ contents executable, t'.node? q = some (.file contents executable)) :
    Leads t' last links here parts (.found q) := by
  induction leads with
  | done =>
    rcases ends with found | ⟨vacant, _⟩
    · cases found
      exact .done
    · cases vacant
  | dot inside _ ih => exact .dot (keeps.directory inside) (ih ends)
  | dotDot inside _ ih => exact .dotDot (keeps.directory inside) (ih ends)
  | vacant inside name none =>
    rcases ends with found | ⟨vacant, contents, executable, stands⟩
    · cases found
    · cases vacant
      exact .entry (keeps.directory inside) name stands (fun _ => FileNode.noConfusion) .done
  | lastLink inside name link stop =>
    rcases ends with found | ⟨vacant, _⟩
    · cases found
      exact .lastLink (keeps.directory inside) name (keeps.link link) stop
    · cases vacant
  | link inside name link go _ ih =>
    exact .link (keeps.directory inside) name (keeps.link link) go (ih ends)
  | entry inside name stands plain _ ih =>
    obtain ⟨after, standing, stillPlain⟩ := keeps.plain stands plain
    exact .entry (keeps.directory inside) name standing stillPlain (ih ends)

end

end RoutineWatch.FileTree
