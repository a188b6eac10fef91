import RoutineWatch.Git.Delta
import RoutineWatch.Proofs.Path.Joining
import RoutineWatch.Proofs.Text.ByteOrder

/-!
# The leaves of a tree

A walk through a tree is told against looking up one row of names after the other
(`Tree.leaf?`, `Tree.subtree?`), which does not depend on any order.

- `Tree.mem_walk`: a walk meets exactly the leaves that rows of names lead to, each under the
  names with slashes between them.
- `Tree.walk_ascending`: the paths of a walk are strictly ascending. A tree is sorted as if a
  slash ended its name, and no other name has a slash, so nothing that stands behind a tree can
  start with its name and a slash.
- `Tree.lookup_walk`: both together, for one row of names.
-/
namespace RoutineWatch
open RoutineWatch.Path (joinParts pieces_joinParts)

namespace Tree

/-- What stands under a name of a tree. -/
inductive Entry where
  | leaf (value : Leaf)
  | directory (inside : Tree)

def at? (name : Bytes) : Tree → Option Entry
  | empty => none
  | leaf other value rest => if name = other then some (.leaf value) else rest.at? name
  | directory other inside rest =>
    if name = other then some (.directory inside) else rest.at? name

/-- The leaf that a row of names leads to. -/
def leaf? (t : Tree) : List Bytes → Option Leaf
  | [] => none
  | name :: names =>
    match t.at? name with
    | some (.leaf value) => if names = [] then some value else none
    | some (.directory inside) => inside.leaf? names
    | none => none

/-- The tree that a row of names leads to. -/
def subtree? (t : Tree) : List Bytes → Option Tree
  | [] => some t
  | name :: names =>
    match t.at? name with
    | some (.directory inside) => inside.subtree? names
    | _ => none

/-! What well-formed trees are like -/

/-- An entry stands ahead of others. -/
structure Leads (name key : Bytes) (rest : Tree) : Prop where
  filled : name ≠ []
  whole : slash ∉ name
  single : name ∉ rest.names
  first : ∀ other ∈ rest.keys, key < other

theorem leads_of_true {name key : Bytes} {rest : Tree} (leading : leads name key rest = true) :
    Leads name key rest := by
  have all := leading
  simp only [leads, isName, Bool.and_eq_true, Bool.not_eq_true', List.isEmpty_eq_false_iff,
    List.contains_eq_mem, decide_eq_false_iff_not, List.all_eq_true] at all
  obtain ⟨⟨⟨⟨filled, whole⟩, _⟩, single⟩, first⟩ := all
  exact ⟨filled, whole, single, fun other member => bytesLess_iff.1 (first other member)⟩

theorem isWellFormed_leaf {name : Bytes} {value : Leaf} {rest : Tree}
    (formed : (leaf name value rest).isWellFormed = true) :
    Leads name name rest ∧ rest.isWellFormed = true := by
  obtain ⟨leading, others⟩ := (Bool.and_eq_true _ _).mp formed
  exact ⟨leads_of_true leading, others⟩

theorem isWellFormed_directory {name : Bytes} {inside rest : Tree}
    (formed : (directory name inside rest).isWellFormed = true) :
    Leads name (name ++ [slash]) rest ∧ inside.isWellFormed = true ∧
      rest.isWellFormed = true := by
  obtain ⟨both, others⟩ := (Bool.and_eq_true _ _).mp formed
  obtain ⟨leading, below⟩ := (Bool.and_eq_true _ _).mp both
  exact ⟨leads_of_true leading, below, others⟩

theorem at?_of_not_mem {t : Tree} {name : Bytes} (foreign : name ∉ t.names) :
    t.at? name = none := by
  induction t with
  | empty => rfl
  | leaf other value rest ih =>
    obtain ⟨apart, absent⟩ := not_or.1 (mt List.mem_cons.2 foreign)
    rw [at?, if_neg apart, ih absent]
  | directory other inside rest _ ih =>
    obtain ⟨apart, absent⟩ := not_or.1 (mt List.mem_cons.2 foreign)
    rw [at?, if_neg apart, ih absent]

/-- Nothing but the last byte of what an entry is sorted by is a slash. -/
theorem whole_of_mem_keys {t : Tree} (formed : t.isWellFormed = true) {key : Bytes}
    (member : key ∈ t.keys) : ∃ name, slash ∉ name ∧ (key = name ∨ key = name ++ [slash]) := by
  induction t with
  | empty => cases member
  | leaf name value rest ih =>
    obtain ⟨leading, others⟩ := isWellFormed_leaf formed
    rcases List.mem_cons.1 member with rfl | later
    · exact ⟨_, leading.whole, Or.inl rfl⟩
    · exact ih others later
  | directory name inside rest _ ih =>
    obtain ⟨leading, _, others⟩ := isWellFormed_directory formed
    rcases List.mem_cons.1 member with rfl | later
    · exact ⟨_, leading.whole, Or.inr rfl⟩
    · exact ih others later

/-! Looking up -/

/-- The leaves of a tree whose first entry is a leaf. -/
theorem leaf?_leaf {name : Bytes} {value found : Leaf} {rest : Tree} (single : name ∉ rest.names)
    {way : List Bytes} :
    (leaf name value rest).leaf? way = some found ↔
      way = [name] ∧ found = value ∨ rest.leaf? way = some found := by
  cases way with
  | nil => simp [leaf?]
  | cons first names =>
    by_cases here : first = name
    · subst here
      have absent : rest.leaf? (first :: names) = none := by
        rw [leaf?, at?_of_not_mem single]
      rw [absent, leaf?, at?, if_pos rfl]
      by_cases last : names = []
      · simp [last, eq_comm]
      · simp [last]
    · have same : (leaf name value rest).leaf? (first :: names) = rest.leaf? (first :: names) := by
        rw [leaf?, leaf?, at?, if_neg here]
      rw [same]
      simp [here]

/-- The leaves of a tree whose first entry is a tree. -/
theorem leaf?_directory {name : Bytes} {inside rest : Tree} {found : Leaf}
    (single : name ∉ rest.names) {way : List Bytes} :
    (directory name inside rest).leaf? way = some found ↔
      (∃ names, way = name :: names ∧ inside.leaf? names = some found) ∨
        rest.leaf? way = some found := by
  cases way with
  | nil => simp [leaf?]
  | cons first names =>
    by_cases here : first = name
    · subst here
      have absent : rest.leaf? (first :: names) = none := by
        rw [leaf?, at?_of_not_mem single]
      rw [absent, leaf?, at?, if_pos rfl]
      simp
    · have same : (directory name inside rest).leaf? (first :: names) =
          rest.leaf? (first :: names) := by
        rw [leaf?, leaf?, at?, if_neg here]
      rw [same]
      simp [here]

/-- A row of names that leads to a leaf is not empty, and no name in it has a slash. -/
theorem way_of_leaf? {t : Tree} (formed : t.isWellFormed = true) {way : List Bytes} {found : Leaf}
    (leads : t.leaf? way = some found) : way ≠ [] ∧ ∀ name ∈ way, slash ∉ name := by
  induction t generalizing way with
  | empty => cases way <;> cases leads
  | leaf name value rest ih =>
    obtain ⟨leading, others⟩ := isWellFormed_leaf formed
    rcases (leaf?_leaf leading.single).1 leads with ⟨rfl, _⟩ | later
    · exact ⟨List.cons_ne_nil _ _, by simpa using leading.whole⟩
    · exact ih others later
  | directory name inside rest ihInside ihRest =>
    obtain ⟨leading, below, others⟩ := isWellFormed_directory formed
    rcases (leaf?_directory leading.single).1 leads with ⟨names, rfl, deeper⟩ | later
    · obtain ⟨_, whole⟩ := ihInside below deeper
      exact ⟨List.cons_ne_nil _ _, List.forall_mem_cons.2 ⟨leading.whole, whole⟩⟩
    · exact ihRest others later

theorem leaf?_append {t inside : Tree} {directory : List Bytes}
    (leads : t.subtree? directory = some inside) (way : List Bytes) :
    t.leaf? (directory ++ way) = inside.leaf? way := by
  induction directory generalizing t with
  | nil =>
    cases leads
    rfl
  | cons name names ih =>
    rw [List.cons_append, leaf?]
    rw [subtree?] at leads
    cases entry : t.at? name with
    | none =>
      rw [entry] at leads
      cases leads
    | some found =>
      rw [entry] at leads
      cases found with
      | leaf value => cases leads
      | directory deeper => exact ih leads

/-- Where there is a leaf there is nothing further down. -/
theorem leaf?_append_of_leaf {t : Tree} {way : List Bytes} {found : Leaf}
    (leads : t.leaf? way = some found) {more : List Bytes} (further : more ≠ []) :
    t.leaf? (way ++ more) = none := by
  induction way generalizing t with
  | nil => cases leads
  | cons name names ih =>
    rw [List.cons_append, leaf?]
    rw [leaf?] at leads
    cases entry : t.at? name with
    | none => rfl
    | some here =>
      rw [entry] at leads
      cases here with
      | leaf value => exact if_neg (by simp [further])
      | directory deeper => exact ih leads

/-! The walk -/

/-- The path of a row of names below the first one. -/
theorem joinParts_cons (above name : Bytes) {names : List Bytes} (more : names ≠ []) :
    above ++ joinParts (name :: names) = above ++ name ++ [slash] ++ joinParts names := by
  cases names with
  | nil => exact absurd rfl more
  | cons next names => simp [joinParts]

theorem mem_walk {t : Tree} (formed : t.isWellFormed = true) {above path : Bytes} {found : Leaf} :
    (path, found) ∈ t.walk above ↔
      ∃ way, t.leaf? way = some found ∧ path = above ++ joinParts way := by
  induction t generalizing above with
  | empty =>
    have nowhere : ∀ way, empty.leaf? way = none := by
      intro way
      cases way <;> rfl
    simp [walk, nowhere]
  | leaf name value rest ih =>
    obtain ⟨leading, others⟩ := isWellFormed_leaf formed
    rw [walk, List.mem_cons, Prod.mk.injEq, ih others]
    simp only [leaf?_leaf leading.single]
    constructor
    · rintro (⟨rfl, rfl⟩ | ⟨way, later, rfl⟩)
      · exact ⟨[name], Or.inl ⟨rfl, rfl⟩, rfl⟩
      · exact ⟨way, Or.inr later, rfl⟩
    · rintro ⟨way, ⟨rfl, rfl⟩ | later, rfl⟩
      · exact Or.inl ⟨rfl, rfl⟩
      · exact Or.inr ⟨way, later, rfl⟩
  | directory name inside rest ihInside ihRest =>
    obtain ⟨leading, below, others⟩ := isWellFormed_directory formed
    rw [walk, List.mem_append, ihInside below, ihRest others]
    simp only [leaf?_directory leading.single]
    constructor
    · rintro (⟨names, deeper, rfl⟩ | ⟨way, later, rfl⟩)
      · exact ⟨name :: names, Or.inl ⟨names, rfl, deeper⟩,
          (joinParts_cons above name (way_of_leaf? below deeper).1).symm⟩
      · exact ⟨way, Or.inr later, rfl⟩
    · rintro ⟨way, ⟨names, rfl, deeper⟩ | later, rfl⟩
      · exact Or.inl ⟨names, deeper, joinParts_cons above name (way_of_leaf? below deeper).1⟩
      · exact Or.inr ⟨way, later, rfl⟩

/-- Each path of a walk starts with what an entry of the tree is sorted by. -/
theorem walk_under_key {t : Tree} {above : Bytes} {e : Bytes × Leaf} (member : e ∈ t.walk above) :
    ∃ key ∈ t.keys, ∃ more, e.1 = above ++ (key ++ more) := by
  induction t generalizing above with
  | empty => cases member
  | leaf name value rest ih =>
    rcases List.mem_cons.1 member with rfl | later
    · exact ⟨name, List.mem_cons_self, [], by simp⟩
    · obtain ⟨key, standing, spelled⟩ := ih later
      exact ⟨key, List.mem_cons_of_mem _ standing, spelled⟩
  | directory name inside rest ihInside ihRest =>
    rcases List.mem_append.1 member with deeper | later
    · obtain ⟨key, _, more, spelled⟩ := ihInside deeper
      exact ⟨name ++ [slash], List.mem_cons_self, key ++ more, by simp [spelled]⟩
    · obtain ⟨key, standing, spelled⟩ := ihRest later
      exact ⟨key, List.mem_cons_of_mem _ standing, spelled⟩

/-- What stands behind a tree does not start with its name and a slash. -/
theorem Leads.apart {name : Bytes} {rest : Tree} (leading : Leads name (name ++ [slash]) rest)
    (formed : rest.isWellFormed = true) {key : Bytes} (member : key ∈ rest.keys) :
    ¬ name ++ [slash] <+: key := by
  rintro ⟨more, spelled⟩
  have less := leading.first key member
  obtain ⟨other, whole, rfl | rfl⟩ := whole_of_mem_keys formed member
  · apply whole
    rw [← spelled]
    simp
  · -- The slash at the end is the only one, so the two names are the same.
    rcases List.eq_nil_or_concat more with rfl | ⟨start, last, rfl⟩
    · rw [List.append_nil] at spelled
      rw [spelled] at less
      exact List.lt_irrefl _ less
    · apply whole
      rw [List.concat_eq_append, ← List.append_assoc] at spelled
      obtain ⟨same, _⟩ := List.append_inj' spelled rfl
      rw [← same]
      simp

theorem walk_ascending {t : Tree} (formed : t.isWellFormed = true) (above : Bytes) :
    (t.walk above).Pairwise fun a b => a.1 < b.1 := by
  induction t generalizing above with
  | empty => exact .nil
  | leaf name value rest ih =>
    obtain ⟨leading, others⟩ := isWellFormed_leaf formed
    refine List.pairwise_cons.2 ⟨fun e member => ?_, ih others above⟩
    obtain ⟨key, standing, more, spelled⟩ := walk_under_key member
    rw [spelled]
    exact List.append_left_lt (lt_append_right (leading.first key standing) more)
  | directory name inside rest ihInside ihRest =>
    obtain ⟨leading, below, others⟩ := isWellFormed_directory formed
    refine List.pairwise_append.2 ⟨ihInside below _, ihRest others above, ?_⟩
    intro a deeper b later
    obtain ⟨key, _, more, spelled⟩ := walk_under_key deeper
    obtain ⟨key', standing, more', spelled'⟩ := walk_under_key later
    have less := lt_append_of_lt (leading.first key' standing) (leading.apart others standing)
      (key ++ more) more'
    rw [spelled, spelled', List.append_assoc above]
    rw [List.append_assoc above]
    exact List.append_left_lt less

/-! Walks as tables -/

theorem lookup_of_lt {es : List (Bytes × Leaf)} {path : Bytes} (less : ∀ e ∈ es, path < e.1) :
    es.lookup path = none := by
  rw [List.lookup_eq_none_iff]
  intro e member
  have apart : path ≠ e.1 := fun same => List.lt_irrefl _ (same ▸ less e member)
  simpa using apart

/-- In a table in order each leaf is found under its path. -/
theorem lookup_eq_some_iff {es : List (Bytes × Leaf)} (ascending : es.Pairwise fun a b => a.1 < b.1)
    {path : Bytes} {found : Leaf} : es.lookup path = some found ↔ (path, found) ∈ es := by
  induction es with
  | nil => simp
  | cons e es ih =>
    obtain ⟨first, others⟩ := List.pairwise_cons.1 ascending
    obtain ⟨other, value⟩ := e
    rw [List.lookup_cons, List.mem_cons, Prod.mk.injEq]
    by_cases here : path = other
    · subst here
      have absent : (path, found) ∉ es :=
        fun member => List.lt_irrefl path (first (path, found) member)
      simp [absent, eq_comm]
    · rw [beq_false_of_ne here]
      simp [here, ih others]

/-- The leaf of a row of names is found in the walk under the path that they spell. -/
theorem lookup_walk {t : Tree} (formed : t.isWellFormed = true) {way : List Bytes}
    (more : way ≠ []) (whole : ∀ name ∈ way, slash ∉ name) :
    (t.walk []).lookup (joinParts way) = t.leaf? way := by
  apply Option.ext
  intro found
  rw [lookup_eq_some_iff (walk_ascending formed []), mem_walk formed]
  constructor
  · rintro ⟨other, leads, spelled⟩
    obtain ⟨more', whole'⟩ := way_of_leaf? formed leads
    -- The names can be read off the path.
    have same : way = other := by
      rw [← pieces_joinParts more whole, ← pieces_joinParts more' whole', spelled,
        List.nil_append]
    rwa [same]
  · intro leads
    exact ⟨way, leads, rfl⟩

/-- A path of a walk is spelled by a row of names without slashes. -/
theorem way_of_lookup {t : Tree} (formed : t.isWellFormed = true) {path : Bytes} {found : Leaf}
    (listed : (t.walk []).lookup path = some found) :
    ∃ way, way ≠ [] ∧ (∀ name ∈ way, slash ∉ name) ∧ path = joinParts way := by
  have member := (lookup_eq_some_iff (walk_ascending formed [])).1 listed
  obtain ⟨way, leads, spelled⟩ := (mem_walk formed).1 member
  obtain ⟨more, whole⟩ := way_of_leaf? formed leads
  exact ⟨way, more, whole, spelled⟩

end Tree

end RoutineWatch
