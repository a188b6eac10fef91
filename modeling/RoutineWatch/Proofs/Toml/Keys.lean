import Mathlib.Data.List.Nodup
import RoutineWatch.Toml.Assembly

/-!
# The keys of a TOML document

No table of a document lists a key twice, however the table came about: on one line, by its
header, by dotted keys, or on the way to another table. Every step of reading keeps this: an
entry is added only where its key is absent, or takes the place of the one that is there.

- `Toml.parse_orderly`: no table of a document lists a key twice.
-/
namespace RoutineWatch.Toml

/-! Rows of entries -/

/-- Each key is listed once, and all values are good. -/
structure Orderly {α : Type} (good : α → Prop) (entries : List (String × α)) : Prop where
  once : (entries.map (·.1)).Nodup
  all : ∀ e ∈ entries, good e.2

section
variable {α β : Type} {good : α → Prop} {entries : List (String × α)} {key : String} {a : α}

theorem Orderly.nil : Orderly good [] := ⟨List.nodup_nil, by simp⟩

theorem absent_of_find? (none : entries.find? (fun e => e.1 = key) = none) :
    key ∉ entries.map (·.1) := by
  intro listed
  obtain ⟨e, member, same⟩ := List.mem_map.1 listed
  have other := List.find?_eq_none.1 none e member
  exact other (by simpa using same)

/-- An entry with a new key is added at the end. -/
theorem Orderly.append (orderly : Orderly good entries) (absent : key ∉ entries.map (·.1))
    (own : good a) : Orderly good (entries ++ [(key, a)]) := by
  constructor
  · rw [List.map_append, List.nodup_append]
    refine ⟨orderly.once, by simp, ?_⟩
    intro first listed last single same
    rw [List.map_singleton, List.mem_singleton] at single
    rw [same, single] at listed
    exact absent listed
  · intro e member
    rcases List.mem_append.1 member with old | new
    · exact orderly.all e old
    · rw [List.mem_singleton.1 new]
      exact own

/-- The value of a key is replaced. -/
theorem Orderly.replace (orderly : Orderly good entries) (own : good a) :
    Orderly good (entries.map fun e => if e.1 = key then (key, a) else e) := by
  constructor
  · have keys : (entries.map fun e => if e.1 = key then (key, a) else e).map (·.1) =
        entries.map (·.1) := by
      rw [List.map_map]
      apply List.map_congr_left
      intro e _
      by_cases same : e.1 = key <;> simp [same]
    rw [keys]
    exact orderly.once
  · intro e member
    obtain ⟨old, listed, shown⟩ := List.mem_map.1 member
    split at shown
    · rw [← shown]
      exact own
    · rw [← shown]
      exact orderly.all old listed

theorem Orderly.filter (orderly : Orderly good entries) (p : String × α → Bool) :
    Orderly good (entries.filter p) :=
  ⟨orderly.once.sublist (List.filter_sublist.map _),
    fun e member => orderly.all e (List.mem_filter.1 member).1⟩

theorem Orderly.map {good' : β → Prop} {f : α → β} (orderly : Orderly good entries)
    (keeps : ∀ a, good a → good' (f a)) : Orderly good' (entries.map fun e => (e.1, f e.2)) := by
  constructor
  · rw [List.map_map]
    exact orderly.once
  · intro e member
    obtain ⟨old, listed, rfl⟩ := List.mem_map.1 member
    exact keeps _ (orderly.all old listed)

theorem Orderly.found (orderly : Orderly good entries) {p : String × α → Bool} {e : String × α}
    (found : entries.find? p = some e) : good e.2 :=
  orderly.all e (List.mem_of_find?_eq_some found)

/-- Where no key is listed twice, a key has one value. -/
theorem Orderly.unique (orderly : Orderly good entries) {b : α} (one : (key, a) ∈ entries)
    (other : (key, b) ∈ entries) : a = b :=
  congrArg Prod.snd (List.inj_on_of_nodup_map orderly.once one other rfl)

end

/-- What every step of a run keeps is kept by the run. -/
theorem foldlM_keeps {α β : Type} {good : α → Prop} {holds : β → Prop} {step : β → α → Option β}
    (keeps : ∀ {before a after}, step before a = some after → good a → holds before → holds after)
    {row : List α} {start last : β} (made : row.foldlM step start = some last)
    (all : ∀ a ∈ row, good a) (begun : holds start) : holds last := by
  induction row generalizing start with
  | nil =>
    cases made
    exact begun
  | cons a row ih =>
    obtain ⟨own, others⟩ := List.forall_mem_cons.1 all
    rw [List.foldlM_cons] at made
    obtain ⟨next, first, later⟩ := Option.bind_eq_some_iff.1 made
    exact ih later others (keeps first own begun)

/-! Values -/

/-- No table in a value lists a key twice. -/
inductive Tidy : Toml → Prop where
  | string (value : String) : Tidy (.string value)
  | integer (value : Int) : Tidy (.integer value)
  | real (value : Binary64) : Tidy (.real value)
  | boolean (value : Bool) : Tidy (.boolean value)
  | datetime (text : String) : Tidy (.datetime text)
  | array {items : List Toml} (all : ∀ v ∈ items, Tidy v) : Tidy (.array items)
  | table {entries : List (String × Toml)} (once : (entries.map (·.1)).Nodup)
      (all : ∀ e ∈ entries, Tidy e.2) : Tidy (.table entries)

theorem tidy_table_iff {entries : List (String × Toml)} :
    Tidy (.table entries) ↔ Orderly Tidy entries := by
  constructor
  · intro tidy
    cases tidy with
    | table once all => exact ⟨once, all⟩
  · intro orderly
    exact .table orderly.once orderly.all

/-! Scalars -/

theorem bounded?_tidy {n : Int} {v : Toml} (made : bounded? n = some v) : Tidy v := by
  unfold bounded? at made
  split at made
  · cases made
    exact .integer n
  · cases made

theorem readRadix_tidy {base : Nat} {isDigit : Char → Bool} {text rest : List Char} {v : Toml}
    (read : readRadix base isDigit text = some (v, rest)) : Tidy v := by
  unfold readRadix at read
  simp only [Option.bind_eq_bind, Option.bind_eq_some_iff, Option.some.injEq, Prod.mk.injEq] at read
  obtain ⟨digits, _, made, bounded, rfl, _⟩ := read
  exact bounded?_tidy bounded

theorem readDecimal_tidy {text rest : List Char} {v : Toml}
    (read : readDecimal text = some (v, rest)) : Tidy v := by
  unfold readDecimal at read
  simp only [Option.bind_eq_bind, Option.bind_eq_some_iff] at read
  obtain ⟨whole, _, fraction, _, exponent, _, read⟩ := read
  split at read
  · simp only [Option.some.injEq, Prod.mk.injEq, Option.bind_eq_some_iff] at read
    obtain ⟨made, bounded, rfl, _⟩ := read
    exact bounded?_tidy bounded
  · split at read
    · cases read
    · cases read
      exact .real _

theorem readNumber_tidy {text rest : List Char} {v : Toml}
    (read : readNumber text = some (v, rest)) : Tidy v := by
  unfold readNumber at read
  split at read
  · exact readRadix_tidy read
  · exact readRadix_tidy read
  · exact readRadix_tidy read
  · dsimp only at read
    split at read
    · cases read
      exact .real _
    · cases read
      exact .real _
    · exact readDecimal_tidy read

theorem readPlainScalar_tidy {text rest : List Char} {v : Toml}
    (read : readPlainScalar text = some (v, rest)) : Tidy v := by
  unfold readPlainScalar at read
  split at read
  · cases read
    exact .boolean true
  · cases read
    exact .boolean false
  · split at read
    · next found dated =>
      cases read
      unfold readDatetime at dated
      obtain ⟨after, _, same⟩ := Option.map_eq_some_iff.1 dated
      cases same
      exact .datetime _
    · exact readNumber_tidy read

/-! Tables on one line -/

/-- No table under construction lists a key twice. -/
inductive Inline.Tidy : Inline → Prop where
  | value {v : Toml} (tidy : Toml.Tidy v) : Tidy (.value v)
  | dotted {entries : List (String × Inline)} (once : (entries.map (·.1)).Nodup)
      (all : ∀ e ∈ entries, Tidy e.2) : Tidy (.dotted entries)

theorem Inline.Tidy.inner {entries : List (String × Inline)} (tidy : Tidy (.dotted entries)) :
    Orderly Tidy entries := by
  cases tidy with
  | dotted once all => exact ⟨once, all⟩

theorem Inline.add_orderly {entries built : List (String × Inline)} {path : List String} {v : Toml}
    (added : Inline.add entries path v = some built) (tidy : Toml.Tidy v)
    (orderly : Orderly Tidy entries) : Orderly Tidy built := by
  fun_induction Inline.add entries path v generalizing built with
  | case1 => cases added
  | case2 => cases added
  | case3 entries v key fresh =>
    cases added
    refine orderly.append ?_ (.value tidy)
    intro listed
    obtain ⟨e, member, same⟩ := List.mem_map.1 listed
    exact fresh (List.any_eq_true.2 ⟨e, member, by simpa using same⟩)
  | case4 entries v key key' keys none ih =>
    obtain ⟨inner, deeper, same⟩ := Option.bind_eq_some_iff.1 added
    cases same
    have made := ih deeper tidy .nil
    exact orderly.append (absent_of_find? none) (.dotted made.once made.all)
  | case5 entries v key key' keys _ inner found ih =>
    obtain ⟨built', deeper, same⟩ := Option.bind_eq_some_iff.1 added
    cases same
    have made := ih deeper tidy (orderly.found found).inner
    exact orderly.replace (.dotted made.once made.all)
  | case6 => cases added

theorem Inline.finishEntries_eq (entries : List (String × Inline)) :
    Inline.finishEntries entries = entries.map fun e => (e.1, e.2.finish) := by
  induction entries with
  | nil => rfl
  | cons e entries ih =>
    obtain ⟨key, inner⟩ := e
    rw [Inline.finishEntries, ih, List.map_cons]

theorem Inline.Tidy.finish {node : Inline} (tidy : node.Tidy) : Toml.Tidy node.finish := by
  induction tidy with
  | value own => exact own
  | @dotted entries once _ ih =>
    rw [Inline.finish, Inline.finishEntries_eq, tidy_table_iff]
    have orderly : Orderly (fun node => Toml.Tidy node.finish) entries := ⟨once, ih⟩
    exact orderly.map fun _ own => own

/-- Entries whose values are tidy make a tidy table. -/
theorem inlineTable?_tidy {entries : List Entry} {v : Toml} (all : ∀ e ∈ entries, Tidy e.2)
    (made : inlineTable? entries = some v) : Tidy v := by
  obtain ⟨built, folded, same⟩ := Option.bind_eq_some_iff.1 made
  cases same
  have orderly : Orderly Inline.Tidy built := foldlM_keeps Inline.add_orderly folded all .nil
  rw [Inline.finishEntries_eq, tidy_table_iff]
  exact orderly.map fun _ => Inline.Tidy.finish

/-! All values -/

/-- What the readers give within some fuel is tidy. -/
structure ReadsTidy (fuel : Nat) : Prop where
  value : ∀ {depth text v rest}, readValue fuel depth text = some (v, rest) → Tidy v
  items : ∀ {depth text items rest}, readItems fuel depth text = some (items, rest) →
    ∀ v ∈ items, Tidy v
  entries : ∀ {depth text entries rest}, readEntries fuel depth text = some (entries, rest) →
    ∀ e ∈ entries, Tidy e.2

section
variable {fuel depth : Nat} {text rest : List Char} (before : ReadsTidy fuel)
include before

theorem ReadsTidy.value_succ {v : Toml} (read : readValue (fuel + 1) depth text = some (v, rest)) :
    Tidy v := by
  unfold readValue at read
  dsimp only at read
  split at read
  · split at read
    · obtain ⟨⟨items, after⟩, inner, same⟩ := Option.bind_eq_some_iff.1 read
      cases same
      exact .array (before.items inner)
    · cases read
  · split at read
    · split at read
      · cases read
        exact .table List.nodup_nil (by simp)
      · obtain ⟨⟨entries, after⟩, inner, made⟩ := Option.bind_eq_some_iff.1 read
        obtain ⟨table, joined, same⟩ := Option.bind_eq_some_iff.1 made
        cases same
        exact inlineTable?_tidy (before.entries inner) joined
    · cases read
  · obtain ⟨found, _, same⟩ := Option.map_eq_some_iff.1 read
    cases same
    exact .string _
  · obtain ⟨found, _, same⟩ := Option.map_eq_some_iff.1 read
    cases same
    exact .string _
  · exact readPlainScalar_tidy read

theorem ReadsTidy.items_succ {items : List Toml}
    (read : readItems (fuel + 1) depth text = some (items, rest)) : ∀ v ∈ items, Tidy v := by
  rw [readItems] at read
  split at read
  · cases read
    simp
  · obtain ⟨⟨item, after⟩, first, more⟩ := Option.bind_eq_some_iff.1 read
    have own := before.value first
    dsimp only at more
    split at more
    · cases more
      exact List.forall_mem_singleton.2 own
    · obtain ⟨⟨others, last⟩, later, same⟩ := Option.bind_eq_some_iff.1 more
      cases same
      exact List.forall_mem_cons.2 ⟨own, before.items later⟩
    · cases more

theorem ReadsTidy.entries_succ {entries : List Entry}
    (read : readEntries (fuel + 1) depth text = some (entries, rest)) :
    ∀ e ∈ entries, Tidy e.2 := by
  rw [readEntries] at read
  obtain ⟨⟨key, afterKey⟩, _, read⟩ := Option.bind_eq_some_iff.1 read
  obtain ⟨afterSign, _, read⟩ := Option.bind_eq_some_iff.1 read
  obtain ⟨⟨value, after⟩, first, more⟩ := Option.bind_eq_some_iff.1 read
  have own := before.value first
  dsimp only at more
  split at more
  · cases more
    exact List.forall_mem_singleton.2 own
  · obtain ⟨⟨others, last⟩, later, same⟩ := Option.bind_eq_some_iff.1 more
    cases same
    exact List.forall_mem_cons.2 ⟨own, before.entries later⟩
  · cases more

end

theorem readsTidy (fuel : Nat) : ReadsTidy fuel := by
  induction fuel with
  | zero =>
    constructor
    · intro depth text v rest read
      simp [readValue] at read
    · intro depth text items rest read
      simp [readItems] at read
    · intro depth text entries rest read
      simp [readEntries] at read
  | succ fuel before => exact ⟨before.value_succ, before.items_succ, before.entries_succ⟩

/-! Sections -/

theorem readEntry_tidy {text rest : List Char} {e : Entry}
    (read : readEntry text = some (e, rest)) : Tidy e.2 := by
  unfold readEntry at read
  obtain ⟨⟨key, afterKey⟩, _, read⟩ := Option.bind_eq_some_iff.1 read
  obtain ⟨afterSign, _, read⟩ := Option.bind_eq_some_iff.1 read
  obtain ⟨⟨value, after⟩, first, read⟩ := Option.bind_eq_some_iff.1 read
  obtain ⟨last, _, same⟩ := Option.bind_eq_some_iff.1 read
  cases same
  exact (readsTidy _).value first

theorem readSections_tidy {fuel : Nat} {header : Header} {entries : List Entry} {text : List Char}
    {sections : List Section} (read : readSections fuel header entries text = some sections)
    (all : ∀ e ∈ entries, Tidy e.2) : ∀ part ∈ sections, ∀ e ∈ part.entries, Tidy e.2 := by
  have reversed : ∀ {row : List Entry}, (∀ e ∈ row, Tidy e.2) → ∀ e ∈ row.reverse, Tidy e.2 := by
    intro row all e member
    exact all e (List.mem_reverse.1 member)
  induction fuel generalizing header entries text sections with
  | zero => cases read
  | succ fuel ih =>
    rw [readSections] at read
    split at read
    · cases read
      exact List.forall_mem_singleton.2 (reversed all)
    · obtain ⟨⟨next, after⟩, _, read⟩ := Option.bind_eq_some_iff.1 read
      obtain ⟨others, later, same⟩ := Option.bind_eq_some_iff.1 read
      cases same
      exact List.forall_mem_cons.2 ⟨reversed all, ih later (by simp)⟩
    · obtain ⟨⟨entry, after⟩, first, later⟩ := Option.bind_eq_some_iff.1 read
      exact ih later (List.forall_mem_cons.2 ⟨readEntry_tidy first, all⟩)

/-! Tables made by sections -/

/-- No table under construction lists a key twice. -/
inductive Node.Tidy : Node → Prop where
  | value {v : Toml} (tidy : Toml.Tidy v) : Tidy (.value v)
  | table {origin : Origin} {entries : List (String × Node)}
      (once : (entries.map (·.1)).Nodup) (all : ∀ e ∈ entries, Tidy e.2) :
      Tidy (.table origin entries)
  | tables {elements : List (List (String × Node))}
      (once : ∀ entries ∈ elements, (entries.map (·.1)).Nodup)
      (all : ∀ entries ∈ elements, ∀ e ∈ entries, Tidy e.2) : Tidy (.tables elements)

namespace Node
variable {origin : Origin} {inner : Nodes} {elements : List Nodes}

theorem tidy_table_iff : Tidy (.table origin inner) ↔ Orderly Tidy inner := by
  constructor
  · intro tidy
    cases tidy with
    | table once all => exact ⟨once, all⟩
  · intro orderly
    exact .table orderly.once orderly.all

theorem tidy_tables_iff :
    Tidy (.tables elements) ↔ ∀ entries ∈ elements, Orderly Tidy entries := by
  constructor
  · intro tidy
    cases tidy with
    | tables once all => exact fun entries member => ⟨once entries member, all entries member⟩
  · intro orderly
    exact .tables (fun entries member => (orderly entries member).once)
      fun entries member => (orderly entries member).all

/-- The last of an array of tables is changed. -/
theorem Tidy.replaceLast {last changed : Nodes} {before : List Nodes}
    (tidy : Tidy (.tables elements)) (ends : elements.reverse = last :: before)
    (keeps : Orderly Tidy last → Orderly Tidy changed) :
    Tidy (.tables (changed :: before).reverse) := by
  have all : ∀ entries ∈ last :: before, Orderly Tidy entries := by
    intro entries member
    rw [← ends, List.mem_reverse] at member
    exact tidy_tables_iff.1 tidy entries member
  obtain ⟨own, others⟩ := List.forall_mem_cons.1 all
  rw [tidy_tables_iff]
  intro entries member
  rw [List.mem_reverse] at member
  exact List.forall_mem_cons.2 ⟨keeps own, others⟩ entries member

end Node

namespace Nodes
variable {nodes changed : Nodes} {key : String} {node : Node}

theorem absent_of_get? (none : nodes.get? key = none) : key ∉ nodes.map (·.1) :=
  absent_of_find? (Option.map_eq_none_iff.1 none)

theorem tidy_of_get? (orderly : Orderly Node.Tidy nodes) (found : nodes.get? key = some node) :
    node.Tidy := by
  obtain ⟨e, entry, same⟩ := Option.map_eq_some_iff.1 found
  rw [← same]
  exact orderly.found entry

theorem orderly_set (orderly : Orderly Node.Tidy nodes) (tidy : node.Tidy) :
    Orderly Node.Tidy (nodes.set key node) :=
  orderly.replace tidy

end Nodes

/-- A change of the table that a path leads to keeps what it keeps there. -/
theorem atPath_orderly {change : Nodes → Option Nodes}
    (keeps : ∀ {nodes changed}, change nodes = some changed → Orderly Node.Tidy nodes →
      Orderly Node.Tidy changed)
    {nodes changed : Nodes} {path : List String} (made : atPath change nodes path = some changed)
    (orderly : Orderly Node.Tidy nodes) : Orderly Node.Tidy changed := by
  fun_induction atPath change nodes path generalizing changed with
  | case1 nodes => exact keeps made orderly
  | case2 nodes key keys none ih =>
    obtain ⟨inner, deeper, same⟩ := Option.bind_eq_some_iff.1 made
    cases same
    exact orderly.append (Nodes.absent_of_get? none) (Node.tidy_table_iff.2 (ih deeper .nil))
  | case3 nodes key keys origin inner found ih =>
    obtain ⟨after, deeper, same⟩ := Option.bind_eq_some_iff.1 made
    cases same
    have tidy := Nodes.tidy_of_get? orderly found
    exact Nodes.orderly_set orderly
      (Node.tidy_table_iff.2 (ih deeper (Node.tidy_table_iff.1 tidy)))
  | case4 => cases made
  | case5 nodes key keys elements found last before ends ih =>
    obtain ⟨after, deeper, same⟩ := Option.bind_eq_some_iff.1 made
    cases same
    have tidy := Nodes.tidy_of_get? orderly found
    exact Nodes.orderly_set orderly (tidy.replaceLast ends (ih deeper))
  | case6 => cases made

theorem addEntry_orderly {nodes changed : Nodes} {path : List String} {v : Toml}
    (made : addEntry nodes path v = some changed) (tidy : Tidy v)
    (orderly : Orderly Node.Tidy nodes) : Orderly Node.Tidy changed := by
  fun_induction addEntry nodes path v generalizing changed with
  | case1 => cases made
  | case2 => cases made
  | case3 nodes key v none =>
    cases made
    exact orderly.append (Nodes.absent_of_get? none) (.value tidy)
  | case4 nodes key last v none =>
    cases made
    have inner : Orderly Node.Tidy ([] ++ [(last, Node.value v)]) :=
      Orderly.nil.append List.not_mem_nil (.value tidy)
    exact orderly.append (Nodes.absent_of_get? none) (Node.tidy_table_iff.2 inner)
  | case5 => cases made
  | case6 nodes key last v inner found none =>
    cases made
    have before := Node.tidy_table_iff.1 (Nodes.tidy_of_get? orderly found)
    have after := before.append (Nodes.absent_of_get? none) (.value tidy)
    exact Nodes.orderly_set orderly (Node.tidy_table_iff.2 after)
  | case7 => cases made
  | case8 nodes key key' key'' keys v none ih =>
    obtain ⟨inner, deeper, same⟩ := Option.bind_eq_some_iff.1 made
    cases same
    exact orderly.append (Nodes.absent_of_get? none) (Node.tidy_table_iff.2 (ih deeper tidy .nil))
  | case9 => cases made
  | case10 nodes key key' key'' keys v origin inner _ found ih =>
    obtain ⟨after, deeper, same⟩ := Option.bind_eq_some_iff.1 made
    cases same
    have before := Node.tidy_table_iff.1 (Nodes.tidy_of_get? orderly found)
    exact Nodes.orderly_set orderly (Node.tidy_table_iff.2 (ih deeper tidy before))
  | case11 => cases made
  | case12 nodes key key' key'' keys v elements found last before ends ih =>
    obtain ⟨after, deeper, same⟩ := Option.bind_eq_some_iff.1 made
    cases same
    have own := Nodes.tidy_of_get? orderly found
    exact Nodes.orderly_set orderly (own.replaceLast ends (ih deeper tidy))
  | case13 => cases made

theorem addEntries_orderly {nodes changed : Nodes} {entries : List Entry}
    (made : addEntries nodes entries = some changed) (tidy : ∀ e ∈ entries, Tidy e.2)
    (orderly : Orderly Node.Tidy nodes) : Orderly Node.Tidy changed :=
  foldlM_keeps addEntry_orderly made tidy orderly

section
variable {nodes changed : Nodes} {key : String} {entries : List Entry}
  (tidy : ∀ e ∈ entries, Tidy e.2)
include tidy

theorem addTable_orderly (made : addTable key entries nodes = some changed)
    (orderly : Orderly Node.Tidy nodes) : Orderly Node.Tidy changed := by
  unfold addTable at made
  split at made
  · next none =>
    obtain ⟨inner, added, same⟩ := Option.bind_eq_some_iff.1 made
    cases same
    have own := addEntries_orderly added tidy .nil
    exact orderly.append (Nodes.absent_of_get? none) (Node.tidy_table_iff.2 own)
  · next inner found =>
    obtain ⟨after, added, same⟩ := Option.bind_eq_some_iff.1 made
    cases same
    have before := Node.tidy_table_iff.1 (Nodes.tidy_of_get? orderly found)
    have own := addEntries_orderly added tidy before
    refine (orderly.filter _).append ?_ (Node.tidy_table_iff.2 own)
    intro listed
    obtain ⟨e, member, same⟩ := List.mem_map.1 listed
    have other := (List.mem_filter.1 member).2
    simp [same] at other
  · cases made

theorem addElement_orderly (made : addElement key entries nodes = some changed)
    (orderly : Orderly Node.Tidy nodes) : Orderly Node.Tidy changed := by
  unfold addElement at made
  split at made
  · next none =>
    obtain ⟨inner, added, same⟩ := Option.bind_eq_some_iff.1 made
    cases same
    have own := addEntries_orderly added tidy .nil
    exact orderly.append (Nodes.absent_of_get? none)
      (Node.tidy_tables_iff.2 (List.forall_mem_singleton.2 own))
  · next elements found =>
    obtain ⟨inner, added, same⟩ := Option.bind_eq_some_iff.1 made
    cases same
    have own := addEntries_orderly added tidy .nil
    have before := Node.tidy_tables_iff.1 (Nodes.tidy_of_get? orderly found)
    refine Nodes.orderly_set orderly (Node.tidy_tables_iff.2 ?_)
    intro element member
    rcases List.mem_append.1 member with old | new
    · exact before element old
    · rw [List.mem_singleton.1 new]
      exact own
  · cases made

end

theorem addSection_orderly {nodes changed : Nodes} {part : Section}
    (made : addSection nodes part = some changed) (tidy : ∀ e ∈ part.entries, Tidy e.2)
    (orderly : Orderly Node.Tidy nodes) : Orderly Node.Tidy changed := by
  unfold addSection at made
  split at made
  · exact addEntries_orderly made tidy orderly
  · split at made
    · cases made
    · exact atPath_orderly (addTable_orderly tidy) made orderly
  · split at made
    · cases made
    · exact atPath_orderly (addElement_orderly tidy) made orderly

/-! The document -/

theorem finishEntries_eq (nodes : Nodes) :
    finishEntries nodes = nodes.map fun e => (e.1, e.2.finish) := by
  induction nodes with
  | nil => rfl
  | cons e nodes ih =>
    obtain ⟨key, node⟩ := e
    rw [finishEntries, ih, List.map_cons]

theorem finishElements_eq (elements : List Nodes) :
    finishElements elements = elements.map fun entries => .table (finishEntries entries) := by
  induction elements with
  | nil => rfl
  | cons entries elements ih => rw [finishElements, ih, List.map_cons]

theorem Node.Tidy.finish {node : Node} (tidy : node.Tidy) : Toml.Tidy node.finish := by
  induction tidy with
  | value own => exact own
  | @table origin entries once _ ih =>
    rw [Node.finish, finishEntries_eq, Toml.tidy_table_iff]
    have orderly : Orderly (fun node => Toml.Tidy node.finish) entries := ⟨once, ih⟩
    exact orderly.map fun _ own => own
  | @tables elements once _ ih =>
    rw [Node.finish, finishElements_eq]
    refine .array ?_
    intro v member
    obtain ⟨entries, listed, same⟩ := List.mem_map.1 member
    rw [← same, finishEntries_eq, Toml.tidy_table_iff]
    have orderly : Orderly (fun node => Toml.Tidy node.finish) entries :=
      ⟨once entries listed, ih entries listed⟩
    exact orderly.map fun _ own => own

/-- No table of a document lists a key twice, the document itself included. -/
theorem parse_orderly {text : String} {entries : List (String × Toml)}
    (read : parse text = .ok entries) : Orderly Tidy entries := by
  unfold parse at read
  split at read
  · cases read
  · next sections found =>
    split at read
    · cases read
    · next nodes built =>
      cases read
      have tidy := readSections_tidy found (by simp)
      have orderly : Orderly Node.Tidy nodes := foldlM_keeps addSection_orderly built tidy .nil
      rw [finishEntries_eq]
      exact orderly.map fun _ => Node.Tidy.finish

end RoutineWatch.Toml
