import RoutineWatch.Proofs.Extraction.Mentions
import RoutineWatch.Proofs.Ordered.Map

/-!
# What the steps of the extraction add

A step leaves the names as they are and adds the pairs of a relation, as far as their names
are in the table. Steps of this kind compose over a list, so each pass is described by the
relation of its one step.

- `SourceTable.Adds`: what a step adds.
- `SourceTable.Adds.foldl`: steps over a list add what any of them adds.
- `SourceTable.Adds.foldl_perm`: in any order they come to the same table.
-/
namespace RoutineWatch

namespace SourceTable

/-- The table lists a path as a source of a name. -/
def Lists (table : SourceTable) (name path : String) : Prop :=
  ∃ paths, table.get? name = some paths ∧ path ∈ paths

theorem ext {s t : SourceTable} (names : s.keys = t.keys)
    (paths : ∀ name path, s.Lists name path ↔ t.Lists name path) : s = t := by
  refine TextMap.ext_get? fun name => ?_
  have known : name ∈ s.keys ↔ name ∈ t.keys := by rw [names]
  rw [TextMap.mem_keys_iff, TextMap.mem_keys_iff] at known
  have same := paths name
  unfold Lists at same
  cases left : s.get? name with
  | none =>
    cases right : t.get? name with
    | none => rfl
    | some _ => simp [left, right] at known
  | some p =>
    cases right : t.get? name with
    | none => simp [left, right] at known
    | some q =>
      have members : ∀ path, path ∈ p ↔ path ∈ q := by simpa [left, right] using same
      rw [TextSet.ext members]

theorem keys_ofNames (names : TextSet) : (ofNames names).keys = names.toList := by
  unfold ofNames TextMap.keys
  rw [List.map_map]
  exact List.map_id names.toList

theorem not_lists_ofNames (names : TextSet) (name path : String) :
    ¬ (ofNames names).Lists name path := by
  rintro ⟨paths, found, member⟩
  obtain ⟨_, _, entry⟩ := List.mem_map.1 (TextMap.get?_eq_some_iff.1 found)
  cases entry
  exact TextSet.not_mem_empty member

theorem get?_add (table : SourceTable) (name path x : String) :
    (table.add name path).get? x =
      if name = x then (table.get? x).map (·.insert path) else table.get? x := by
  unfold add
  by_cases same : name = x
  · subst x
    rw [if_pos rfl]
    cases found : table.get? name with
    | none => exact found
    | some paths => simp [TextMap.get?_insert]
  · rw [if_neg same]
    cases table.get? name with
    | none => rfl
    | some paths => rw [TextMap.get?_insert, if_neg same]

theorem keys_add (table : SourceTable) (name path : String) :
    (table.add name path).keys = table.keys := by
  refine (TextMap.keys_ascending _).eq_of_mem_iff (TextMap.keys_ascending _) fun x => ?_
  rw [TextMap.mem_keys_iff, TextMap.mem_keys_iff, get?_add]
  by_cases same : name = x
  · rw [if_pos same]
    cases table.get? x <;> simp
  · rw [if_neg same]

theorem lists_add (table : SourceTable) (name path x y : String) :
    (table.add name path).Lists x y ↔
      table.Lists x y ∨ x ∈ table.keys ∧ name = x ∧ path = y := by
  unfold Lists
  rw [get?_add, TextMap.mem_keys_iff]
  by_cases same : name = x
  · rw [if_pos same]
    cases table.get? x with
    | none => simp
    | some paths => simp [same, or_comm, eq_comm]
  · simp [same]

/-- A path that is listed already changes nothing. -/
theorem add_of_lists {table : SourceTable} {name path : String}
    (listed : table.Lists name path) : table.add name path = table := by
  refine ext (keys_add table name path) fun x y => ?_
  rw [lists_add]
  constructor
  · rintro (before | ⟨_, rfl, rfl⟩)
    · exact before
    · exact listed
  · exact Or.inl

/-- A step leaves the names as they are and adds the pairs of a relation. -/
structure Adds {α : Type} (step : SourceTable → α → SourceTable)
    (relation : α → String → String → Prop) : Prop where
  keys : ∀ table a, (step table a).keys = table.keys
  lists : ∀ table a name path, (step table a).Lists name path ↔
    table.Lists name path ∨ name ∈ table.keys ∧ relation a name path

variable {α β : Type} {step : SourceTable → α → SourceTable}
  {relation : α → String → String → Prop}

/-- Adding a pair adds this pair. -/
theorem adds_add : Adds (fun table (e : String × String) => table.add e.1 e.2)
    fun e name path => e.1 = name ∧ e.2 = path where
  keys := fun table e => keys_add table e.1 e.2
  lists := fun table e name path => lists_add table e.1 e.2 name path

/-- A step may be told by something else than what it takes. -/
theorem Adds.comap (adds : Adds step relation) (f : β → α) :
    Adds (fun table b => step table (f b)) fun b => relation (f b) where
  keys := fun table b => adds.keys table (f b)
  lists := fun table b => adds.lists table (f b)

/-- Steps over a list add what any of them adds. -/
theorem Adds.foldl (adds : Adds step relation) :
    Adds (fun table (as : List α) => as.foldl step table) fun as name path =>
      ∃ a ∈ as, relation a name path where
  keys := by
    intro table as
    induction as generalizing table with
    | nil => rfl
    | cons a as ih => rw [List.foldl_cons, ih, adds.keys]
  lists := by
    intro table as name path
    induction as generalizing table with
    | nil => simp
    | cons a as ih =>
      rw [List.foldl_cons, ih, adds.lists, adds.keys]
      constructor
      · rintro ((before | ⟨known, now⟩) | ⟨known, b, member, later⟩)
        · exact Or.inl before
        · exact Or.inr ⟨known, a, List.mem_cons_self, now⟩
        · exact Or.inr ⟨known, b, List.mem_cons_of_mem a member, later⟩
      · rintro (before | ⟨known, b, member, adds⟩)
        · exact Or.inl (Or.inl before)
        · cases member with
          | head => exact Or.inl (Or.inr ⟨known, adds⟩)
          | tail _ later => exact Or.inr ⟨known, b, later, adds⟩

/-- Steps in any order come to the same table. -/
theorem Adds.foldl_perm (adds : Adds step relation) {as bs : List α} (same : as.Perm bs)
    (table : SourceTable) : as.foldl step table = bs.foldl step table := by
  refine ext ?_ fun name path => ?_
  · rw [adds.foldl.keys, adds.foldl.keys]
  · rw [adds.foldl.lists, adds.foldl.lists]
    simp only [same.mem_iff]

end SourceTable

namespace Extraction
open SourceTable (Adds)

/-! The three passes -/

/-- A function item of a name and a file. -/
def Declares (item : DocItem) (name path : String) : Prop :=
  item.isFunction = true ∧ item.name? = some name ∧
    ∃ file, item.file? = some file ∧ (Path.ofString file).posix = path

theorem adds_addDeclaration : Adds addDeclaration Declares where
  keys := by
    intro table item
    unfold addDeclaration
    split
    · split
      · exact SourceTable.keys_add _ _ _
      · rfl
    · rfl
  lists := by
    intro table item x y
    unfold addDeclaration Declares
    cases item.isFunction with
    | false => simp
    | true =>
      cases item.name? with
      | none => simp
      | some name =>
        cases item.file? with
        | none => simp
        | some file => simp [SourceTable.lists_add]

/-- Recording the mention aside, a mention adds the file. -/
theorem addMention_table (path : String) (state : SourceTable × List Event) (name : String) :
    (addMention path state name).1 = state.1.add name path := by
  unfold addMention
  cases found : state.1.get? name with
  | none => simp [SourceTable.add, found]
  | some paths =>
    by_cases member : path ∈ paths
    · have listed : state.1.Lists name path := ⟨paths, found, member⟩
      simp [TextSet.contains, member, SourceTable.add_of_lists listed]
    · simp [TextSet.contains, member]

/-- The sources of all names that a file mentions. -/
def scanTable (functions : TextSet) (table : SourceTable) (file : SourceFile) : SourceTable :=
  (mentionsInOrder (searchTable functions) [] file.contents.toList).foldl
    (fun table name => table.add name file.path) table

theorem scan_table (files : List SourceFile) (functions : TextSet) (table : SourceTable) :
    (scan files functions table).1 = files.foldl (scanTable functions) table := by
  have one : ∀ (state : SourceTable × List Event) (file : SourceFile),
      scanTable functions state.1 file = (scanFile (searchTable functions) state file).1 := by
    intro state file
    exact List.foldl_hom Prod.fst fun state name => (addMention_table file.path state name).symm
  exact (List.foldl_hom Prod.fst one).symm

/-- A file that has the definition text of a public function. -/
def Mentions (functions : TextSet) (file : SourceFile) (name path : String) : Prop :=
  file.path = path ∧ name ∈ functions ∧ definitionText name <:+: file.contents.toList

theorem adds_scanTable (functions : TextSet) :
    Adds (scanTable functions) (Mentions functions) := by
  have one (file : SourceFile) := SourceTable.adds_add.comap fun name => (name, file.path)
  constructor
  · intro table file
    exact (one file).foldl.keys table _
  · intro table file name path
    unfold scanTable Mentions
    rw [(one file).foldl.lists]
    simp only [mem_mentions_iff]
    constructor
    · rintro (before | ⟨known, _, ⟨exported, occurs⟩, rfl, here⟩)
      · exact Or.inl before
      · exact Or.inr ⟨known, here, exported, occurs⟩
    · rintro (before | ⟨known, here, exported, occurs⟩)
      · exact Or.inl before
      · exact Or.inr ⟨known, name, ⟨exported, occurs⟩, rfl, here⟩

/-- A shared source that the base of a name had before. -/
def SharedWith (rule : ExtractionRule) (before : SourceTable) (name x path : String) : Prop :=
  name = x ∧ before.Lists (RoutineName.base name) path ∧
    rule.genericMarker.toList <:+: path.toList

theorem adds_addShared (rule : ExtractionRule) (before : SourceTable) :
    Adds (addShared rule before) (SharedWith rule before) := by
  have one (name : String) := SourceTable.adds_add.comap fun path => (name, path)
  constructor
  · intro table name
    unfold addShared
    cases before.get? (RoutineName.base name) with
    | none => rfl
    | some paths => exact (one name).foldl.keys table _
  · intro table name x path
    unfold addShared SharedWith SourceTable.Lists
    cases before.get? (RoutineName.base name) with
    | none => simp
    | some paths =>
      dsimp only
      rw [← SourceTable.Lists, ← SourceTable.Lists, (one name).foldl.lists]
      simp [TextSet.mem_def, isShared, occursIn_iff, and_assoc, and_comm]

end Extraction

end RoutineWatch
