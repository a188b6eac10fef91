import Mathlib.Data.List.Nodup
import Mathlib.Data.List.Sort
import RoutineWatch.Ordered.Map

/-!
# Maps and sets by their look-ups

Two maps with the same look-up are the same map, the last entry of a key decides what a list
of entries maps it to, and each operation on a map has one look-up equation.

- `TextMap.ext_get?`, `TextSet.ext`: maps and sets with the same look-up are the same.
- `TextMap.get?_ofList`, `TextMap.get?_erase`, `TextMap.get?_mapValues`: the equations.
-/
namespace RoutineWatch

theorem TextSet.ext {s t : TextSet} (same : ∀ x, x ∈ s ↔ x ∈ t) : s = t := by
  have lists : s.toList = t.toList := s.ascending.eq_of_mem_iff t.ascending same
  cases s
  cases t
  simpa using lists

namespace TextMap
variable {β γ : Type}

/-- The order of entries by their keys. -/
def KeyLess (a b : String × β) : Prop := a.1 < b.1

instance : Std.Irrefl (KeyLess (β := β)) := ⟨fun a => String.lt_irrefl a.1⟩

instance : Std.Antisymm (KeyLess (β := β)) :=
  ⟨fun _ _ less more => absurd (String.lt_trans less more) (String.lt_irrefl _)⟩

theorem keys_ascending (m : TextMap β) : m.keys.Pairwise (· < ·) := by
  unfold keys
  rw [List.pairwise_map]
  exact m.ascending

theorem eq_of_key_eq {m : TextMap β} {a b : String × β} (left : a ∈ m.toList)
    (right : b ∈ m.toList) (key : a.1 = b.1) : a = b := by
  have distinct : (m.toList.map (·.1)).Nodup := (keys_ascending m).imp String.ne_of_lt
  exact List.inj_on_of_nodup_map distinct left right key

theorem get?_eq_some_iff {m : TextMap β} {k : String} {v : β} :
    m.get? k = some v ↔ (k, v) ∈ m.toList := by
  unfold get?
  constructor
  · intro h
    obtain ⟨e, found, rfl⟩ := Option.map_eq_some_iff.1 h
    have key : e.1 = k := by simpa using List.find?_some found
    exact key ▸ List.mem_of_find?_eq_some found
  · intro member
    cases found : m.toList.find? (fun e => e.1 = k) with
    | none =>
      have absent := List.find?_eq_none.1 found (k, v) member
      simp at absent
    | some e =>
      have key : e.1 = k := by simpa using List.find?_some found
      rw [eq_of_key_eq (List.mem_of_find?_eq_some found) member key]
      rfl

theorem mem_keys_iff {m : TextMap β} {k : String} : k ∈ m.keys ↔ ∃ v, m.get? k = some v := by
  constructor
  · intro member
    obtain ⟨e, entry, rfl⟩ := List.mem_map.1 member
    exact ⟨e.2, get?_eq_some_iff.2 entry⟩
  · rintro ⟨v, found⟩
    exact List.mem_map.2 ⟨(k, v), get?_eq_some_iff.1 found, rfl⟩

theorem ext_get? {m n : TextMap β} (same : ∀ k, m.get? k = n.get? k) : m = n := by
  have left : m.toList.Pairwise KeyLess := m.ascending
  have right : n.toList.Pairwise KeyLess := n.ascending
  have lists : m.toList = n.toList := by
    refine left.eq_of_mem_iff right fun e => ?_
    rw [← get?_eq_some_iff (k := e.1) (v := e.2), same, get?_eq_some_iff]
  cases m
  cases n
  simpa using lists

@[simp] theorem get?_empty (k : String) : (empty : TextMap β).get? k = none := rfl

theorem get?_erase (m : TextMap β) (k x : String) :
    (m.erase k).get? x = if x = k then none else m.get? x := by
  have entries : (m.erase k).toList = m.toList.filter fun e => e.1 ≠ k := rfl
  apply Option.ext
  intro v
  rw [get?_eq_some_iff, entries, List.mem_filter, ← get?_eq_some_iff]
  by_cases same : x = k <;> simp [same]

theorem get?_mapValues (m : TextMap β) (f : String → β → γ) (k : String) :
    (m.mapValues f).get? k = (m.get? k).map (f k) := by
  apply Option.ext
  intro v
  rw [get?_eq_some_iff, Option.map_eq_some_iff]
  simp only [mapValues, List.mem_map, Prod.mk.injEq, get?_eq_some_iff]
  constructor
  · rintro ⟨e, entry, rfl, rfl⟩
    exact ⟨e.2, entry, rfl⟩
  · rintro ⟨w, entry, rfl⟩
    exact ⟨(k, w), entry, rfl, rfl⟩

/-- Of entries with one key the last counts. -/
theorem get?_foldl_insert (entries : List (String × β)) (m : TextMap β) (k : String) :
    (entries.foldl (fun m e => m.insert e.1 e.2) m).get? k =
      ((entries.reverse.find? fun e => e.1 = k).map (·.2)).or (m.get? k) := by
  induction entries generalizing m with
  | nil => rfl
  | cons e entries ih =>
    rw [List.foldl_cons, ih, get?_insert, List.reverse_cons, List.find?_append]
    cases entries.reverse.find? fun e => e.1 = k with
    | some later => rfl
    | none => by_cases same : e.1 = k <;> simp [same]

theorem get?_ofList (entries : List (String × β)) (k : String) :
    (ofList entries).get? k = (entries.reverse.find? fun e => e.1 = k).map (·.2) := by
  rw [ofList, get?_foldl_insert, get?_empty, Option.or_none]

/-- A list in ascending key order is the list of its map. -/
theorem toList_ofList {entries : List (String × β)} (h : entries.Pairwise (·.1 < ·.1)) :
    (ofList entries).toList = entries := by
  suffices same : ofList entries = ⟨entries, h⟩ by rw [same]
  refine ext_get? fun k => ?_
  apply Option.ext
  intro v
  rw [get?_ofList, get?_eq_some_iff, Option.map_eq_some_iff]
  constructor
  · rintro ⟨e, found, rfl⟩
    have key : e.1 = k := by simpa using List.find?_some found
    exact key ▸ List.mem_reverse.1 (List.mem_of_find?_eq_some found)
  · intro member
    cases found : entries.reverse.find? (fun e => e.1 = k) with
    | none =>
      have absent := List.find?_eq_none.1 found (k, v) (List.mem_reverse.2 member)
      simp at absent
    | some e =>
      have key : e.1 = k := by simpa using List.find?_some found
      have place : e ∈ entries := List.mem_reverse.1 (List.mem_of_find?_eq_some found)
      have entry : e = (k, v) := eq_of_key_eq (m := ⟨entries, h⟩) place member key
      exact ⟨e, rfl, congrArg Prod.snd entry⟩

theorem ofList_toList (m : TextMap β) : ofList m.toList = m := by
  have lists : (ofList m.toList).toList = m.toList := toList_ofList m.ascending
  cases m
  cases h : ofList _
  simpa [h] using lists

/-- The first entry counts where no other one has its key. -/
theorem get?_ofList_cons (e : String × β) (entries : List (String × β)) (k : String) :
    (ofList (e :: entries)).get? k =
      ((ofList entries).get? k).or (if e.1 = k then some e.2 else none) := by
  rw [get?_ofList, get?_ofList, List.reverse_cons, List.find?_append, Option.map_or]
  congr 1
  by_cases same : e.1 = k <;> simp [same]

end TextMap

end RoutineWatch
