import RoutineWatch.Ordered.Set

/-!
# Maps keyed by texts

Finite maps keyed by texts, listed in strictly ascending key order.

- `TextMap.get?_insert`: what a key is mapped to.
-/
namespace RoutineWatch

/-- A finite map from texts. -/
structure TextMap (β : Type) where
  toList : List (String × β)
  ascending : toList.Pairwise (·.1 < ·.1)

namespace TextMap
variable {β : Type}

instance [DecidableEq β] : DecidableEq (TextMap β) := fun a b =>
  decidable_of_iff (a.toList = b.toList)
    ⟨fun h => by cases a; cases b; simp_all, fun h => by rw [h]⟩

/-- Places an entry in an ascending list, instead of the one of the same key. -/
def place (k : String) (v : β) : List (String × β) → List (String × β)
  | [] => [(k, v)]
  | e :: es =>
    if k < e.1 then (k, v) :: e :: es
    else if k = e.1 then (k, v) :: es
    else e :: place k v es

theorem mem_place {k : String} {v : β} {es : List (String × β)} {e : String × β}
    (h : e ∈ place k v es) : e = (k, v) ∨ e ∈ es := by
  induction es with
  | nil => simpa [place] using h
  | cons d ds ih =>
    simp only [place] at h
    split at h
    · simpa using h
    · split at h
      · rcases List.mem_cons.1 h with h | h
        · exact Or.inl h
        · exact Or.inr (List.mem_cons_of_mem _ h)
      · rcases List.mem_cons.1 h with h | h
        · exact Or.inr (h ▸ List.mem_cons_self)
        · exact (ih h).imp_right (List.mem_cons_of_mem _)

theorem place_ascending (k : String) (v : β) {es : List (String × β)}
    (h : es.Pairwise (·.1 < ·.1)) : (place k v es).Pairwise (·.1 < ·.1) := by
  induction es with
  | nil => simp [place]
  | cons e es ih =>
    obtain ⟨head, tail⟩ := List.pairwise_cons.1 h
    simp only [place]
    split
    · next hk =>
      refine List.pairwise_cons.2 ⟨?_, h⟩
      intro d hd
      rcases List.mem_cons.1 hd with rfl | hd
      · exact hk
      · exact String.lt_trans hk (head d hd)
    · next hk =>
      split
      · next he =>
        refine List.pairwise_cons.2 ⟨?_, tail⟩
        intro d hd
        exact he ▸ head d hd
      · next hne =>
        refine List.pairwise_cons.2 ⟨?_, ih tail⟩
        intro d hd
        rcases mem_place hd with rfl | hd
        · exact TextSet.lt_of_not_lt_of_ne hk hne
        · exact head d hd

def empty : TextMap β := ⟨[], List.Pairwise.nil⟩

/-- The map with `k` mapped to `v`, whatever it was mapped to. -/
def insert (m : TextMap β) (k : String) (v : β) : TextMap β :=
  ⟨place k v m.toList, place_ascending k v m.ascending⟩

/-- The map of a list of entries; of entries with one key the last counts. -/
def ofList (entries : List (String × β)) : TextMap β :=
  entries.foldl (fun m e => m.insert e.1 e.2) empty

/-- What a key is mapped to. -/
def get? (m : TextMap β) (k : String) : Option β :=
  (m.toList.find? fun e => e.1 = k).map (·.2)

/-- The keys, ascending. -/
def keys (m : TextMap β) : List String := m.toList.map (·.1)

def size (m : TextMap β) : Nat := m.toList.length

def isEmpty (m : TextMap β) : Bool := m.toList.isEmpty

def erase (m : TextMap β) (k : String) : TextMap β :=
  ⟨m.toList.filter (fun e => e.1 ≠ k), m.ascending.filter _⟩

/-- The map with what each entry's value becomes. -/
def mapValues {γ : Type} (m : TextMap β) (f : String → β → γ) : TextMap γ :=
  ⟨m.toList.map fun e => (e.1, f e.1 e.2), by
    rw [List.pairwise_map]
    exact m.ascending⟩

theorem find?_place (k : String) (v : β) (es : List (String × β)) (x : String) :
    (place k v es).find? (fun e => e.1 = x) =
      if k = x then some (k, v) else es.find? (fun e => e.1 = x) := by
  induction es with
  | nil => by_cases hx : k = x <;> simp [place, hx]
  | cons e es ih =>
    simp only [place]
    split
    · by_cases hx : k = x <;> simp [List.find?_cons, hx]
    · split
      · next he =>
        simp only [List.find?_cons]
        by_cases hx : k = x
        · simp [hx]
        · simp [hx, ← he]
      · simp only [List.find?_cons, ih]
        by_cases hx : k = x
        · subst hx
          have : ¬ e.1 = k := fun h => by simp_all
          simp [this]
        · simp [hx]

theorem get?_insert (m : TextMap β) (k : String) (v : β) (x : String) :
    (m.insert k v).get? x = if k = x then some v else m.get? x := by
  unfold get? insert
  rw [find?_place]
  split <;> rfl

end TextMap

end RoutineWatch
