/-!
# Sets of texts

Finite sets of texts, listed in strictly ascending order. Code point order is used,
which for UTF-8 is the order of the bytes.

- `TextSet.mem_insert`, `TextSet.mem_ofList`: what is in a set.
-/
namespace RoutineWatch

/-- A finite set of texts. -/
structure TextSet where
  toList : List String
  ascending : toList.Pairwise (· < ·)
deriving DecidableEq

namespace TextSet

/-- Places a text in an ascending list, unless it is there already. -/
def place (x : String) : List String → List String
  | [] => [x]
  | y :: ys => if x < y then x :: y :: ys else if x = y then y :: ys else y :: place x ys

theorem mem_place {x z : String} {ys : List String} : z ∈ place x ys ↔ z = x ∨ z ∈ ys := by
  induction ys with
  | nil => simp [place]
  | cons y ys ih =>
    simp only [place]
    split
    · simp
    · split
      · next h => subst h; simp
      · simp only [List.mem_cons, ih]
        constructor
        · rintro (h | h | h) <;> simp [h]
        · rintro (h | h | h) <;> simp [h]

theorem lt_of_not_lt_of_ne {x y : String} (hlt : ¬ x < y) (hne : x ≠ y) : y < x := by
  rcases Decidable.em (y < x) with h | h
  · exact h
  · exact absurd (String.le_antisymm (String.not_lt.1 h) (String.not_lt.1 hlt)) hne

theorem place_ascending (x : String) {ys : List String} (h : ys.Pairwise (· < ·)) :
    (place x ys).Pairwise (· < ·) := by
  induction ys with
  | nil => simp [place]
  | cons y ys ih =>
    obtain ⟨head, tail⟩ := List.pairwise_cons.1 h
    simp only [place]
    split
    · next hxy =>
      refine List.pairwise_cons.2 ⟨?_, h⟩
      intro z hz
      rcases List.mem_cons.1 hz with rfl | hz
      · exact hxy
      · exact String.lt_trans hxy (head z hz)
    · next hxy =>
      split
      · exact h
      · next hne =>
        refine List.pairwise_cons.2 ⟨?_, ih tail⟩
        intro z hz
        rcases mem_place.1 hz with rfl | hz
        · exact lt_of_not_lt_of_ne hxy hne
        · exact head z hz

def empty : TextSet := ⟨[], List.Pairwise.nil⟩

def insert (s : TextSet) (x : String) : TextSet := ⟨place x s.toList, place_ascending x s.ascending⟩

/-- The set of the elements of a list. -/
def ofList (xs : List String) : TextSet := xs.foldl insert empty

instance : Membership String TextSet := ⟨fun s x => x ∈ s.toList⟩

theorem mem_def {s : TextSet} {x : String} : x ∈ s ↔ x ∈ s.toList := Iff.rfl

instance (s : TextSet) (x : String) : Decidable (x ∈ s) :=
  inferInstanceAs (Decidable (x ∈ s.toList))

def contains (s : TextSet) (x : String) : Bool := decide (x ∈ s)

def size (s : TextSet) : Nat := s.toList.length

def isEmpty (s : TextSet) : Bool := s.toList.isEmpty

@[simp] theorem not_mem_empty {x : String} : ¬ x ∈ empty := by simp [mem_def, empty]

@[simp] theorem mem_insert {s : TextSet} {x z : String} : z ∈ s.insert x ↔ z = x ∨ z ∈ s := by
  simp [mem_def, insert, mem_place]

theorem mem_foldl_insert {xs : List String} {s : TextSet} {z : String} :
    z ∈ xs.foldl insert s ↔ z ∈ s ∨ z ∈ xs := by
  induction xs generalizing s with
  | nil => simp
  | cons x xs ih =>
    simp only [List.foldl_cons, ih, mem_insert, List.mem_cons]
    constructor
    · rintro ((h | h) | h) <;> simp [h]
    · rintro (h | h | h) <;> simp [h]

@[simp] theorem mem_ofList {xs : List String} {z : String} : z ∈ ofList xs ↔ z ∈ xs := by
  simp [ofList, mem_foldl_insert]

end TextSet

end RoutineWatch
