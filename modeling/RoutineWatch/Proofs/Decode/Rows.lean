import Mathlib.Data.List.Forall2
import Mathlib.Data.List.Nodup

/-!
# Readings of rows

A row of readings that can each fail gives the results of all of them, or stops at one that
fails. A run that reads entries into a state goes through if it takes every entry, and what
it leaves in a place of the state depends only on the entry for that place.

- `exists_mapM_eq_ok_iff`: a row goes through exactly if each reading does.
- `exists_foldlM_eq_ok_iff`: a run goes through exactly if it takes each entry.
- `foldlM_given`: what a run leaves in a place.
-/
namespace RoutineWatch

/-! Readings in a row -/

section
variable {α β ε : Type} {read : α → Except ε β} {xs : List α}

theorem mapM_cons_eq (x : α) : (x :: xs).mapM read =
    match read x with
    | .error e => .error e
    | .ok y => (xs.mapM read).map (y :: ·) := by
  rw [List.mapM_cons]
  cases read x with
  | error e => rfl
  | ok y => cases xs.mapM read <;> rfl

/-- A row of readings gives the results of all, in their order. -/
theorem mapM_eq_ok_iff {ys : List β} :
    xs.mapM read = .ok ys ↔ List.Forall₂ (fun x y => read x = .ok y) xs ys := by
  induction xs generalizing ys with
  | nil =>
    rw [List.forall₂_nil_left_iff]
    constructor
    · intro all
      cases all
      rfl
    · intro none
      rw [none]
      rfl
  | cons x xs ih =>
    rw [mapM_cons_eq, List.forall₂_cons_left_iff]
    simp only [← ih]
    cases read x with
    | error e => simp
    | ok y => cases xs.mapM read <;> simp [Except.map, eq_comm]

/-- Each result is one of them. -/
theorem exists_of_mapM_eq_ok {ys : List β} (all : xs.mapM read = .ok ys) {y : β}
    (member : y ∈ ys) : ∃ x ∈ xs, read x = .ok y := by
  have each := mapM_eq_ok_iff.1 all
  clear all
  induction each with
  | nil => cases member
  | @cons x y' xs ys first _ ih =>
    cases member with
    | head => exact ⟨x, List.mem_cons_self, first⟩
    | tail _ later =>
      obtain ⟨x', found, one⟩ := ih later
      exact ⟨x', List.mem_cons_of_mem x found, one⟩

/-- What is made of an error makes no difference to a success. -/
theorem mapError_eq_ok_iff {δ : Type} {f : ε → δ} {result : Except ε α} {a : α} :
    result.mapError f = .ok a ↔ result = .ok a := by
  cases result <;> simp [Except.mapError]

end

/-! Entries, each with a key -/

/-- Where no key is listed twice, the first entry of a key is its only one. -/
theorem find?_of_once {κ β : Type} [DecidableEq κ] {entries : List (κ × β)} {key : κ} {v : β}
    (once : (entries.map (·.1)).Nodup) (entry : (key, v) ∈ entries) :
    entries.find? (fun e => e.1 = key) = some (key, v) := by
  induction entries with
  | nil => cases entry
  | cons e entries ih =>
    obtain ⟨absent, others⟩ := List.nodup_cons.1 once
    cases entry with
    | head => simp
    | tail _ later =>
      have other : e.1 ≠ key := by
        intro same
        have listed : e.1 ∈ entries.map (·.1) := by
          rw [same]
          exact List.mem_map_of_mem later
        exact absent listed
      rw [List.find?_cons_of_neg (by simpa using other)]
      exact ih others later

/-! Runs over entries -/

/-- What a value is: the one that is given for the key, or the default where none is. -/
structure Given {α β : Type} (means : β → α → Prop) (default : α) (entries : List (String × β))
    (key : String) (value : α) : Prop where
  given : ∀ v, (key, v) ∈ entries → means v value
  missing : key ∉ entries.map (·.1) → value = default

section
variable {α β σ ε : Type} {step : σ → String × β → Except ε σ} {entries : List (String × β)}
  {start last : σ}

theorem foldlM_cons_eq_ok_iff {e : String × β} :
    (e :: entries).foldlM step start = .ok last ↔
      ∃ next, step start e = .ok next ∧ entries.foldlM step next = .ok last := by
  rw [List.foldlM_cons]
  cases step start e <;> simp [bind, Except.bind]

theorem foldlM_append_eq_ok_iff {others : List (String × β)} :
    (entries ++ others).foldlM step start = .ok last ↔
      ∃ next, entries.foldlM step start = .ok next ∧ others.foldlM step next = .ok last := by
  rw [List.foldlM_append]
  cases entries.foldlM step start <;> simp [bind, Except.bind]

/-- A run goes through exactly if it takes each entry, in whatever state it is. -/
theorem exists_foldlM_eq_ok_iff {taken : String × β → Prop}
    (each : ∀ e ∈ entries, ∀ c, (∃ c', step c e = .ok c') ↔ taken e) :
    (∃ last, entries.foldlM step start = .ok last) ↔ ∀ e ∈ entries, taken e := by
  induction entries generalizing start with
  | nil => simp [pure, Except.pure]
  | cons e entries ih =>
    obtain ⟨own, others⟩ := List.forall_mem_cons.1 each
    simp only [foldlM_cons_eq_ok_iff]
    rw [List.forall_mem_cons, ← own start]
    constructor
    · intro whole
      obtain ⟨last, next, first, later⟩ := whole
      exact ⟨⟨next, first⟩, (ih others).1 ⟨last, later⟩⟩
    · intro both
      obtain ⟨⟨next, first⟩, later⟩ := both
      obtain ⟨last, later⟩ := (ih others).2 later
      exact ⟨last, next, first, later⟩

variable (place : σ → α) {key : String}
  (other : ∀ e c c', step c e = .ok c' → e.1 ≠ key → place c' = place c)
include other

/-- A place that one key is for stays as it is while there is no entry of this key. -/
theorem foldlM_untouched (run : entries.foldlM step start = .ok last)
    (absent : key ∉ entries.map (·.1)) : place last = place start := by
  induction entries generalizing start with
  | nil =>
    cases run
    rfl
  | cons e entries ih =>
    obtain ⟨next, first, later⟩ := foldlM_cons_eq_ok_iff.1 run
    rw [List.map_cons, List.mem_cons, not_or] at absent
    obtain ⟨apart, absent⟩ := absent
    exact (ih later absent).trans (other e start next first (Ne.symm apart))

/-- Afterwards it has what the entry of this key gives, wherever that stands. -/
theorem foldlM_given {means : β → α → Prop} (run : entries.foldlM step start = .ok last)
    (once : (entries.map (·.1)).Nodup)
    (own : ∀ v, (key, v) ∈ entries → ∀ c c', step c (key, v) = .ok c' → place c = place start →
      means v (place c')) :
    Given means (place start) entries key (place last) := by
  constructor
  · intro v listed
    have meant := own v listed
    obtain ⟨before, after, rfl⟩ := List.append_of_mem listed
    obtain ⟨c, first, rest⟩ := foldlM_append_eq_ok_iff.1 run
    obtain ⟨c', there, later⟩ := foldlM_cons_eq_ok_iff.1 rest
    rw [List.map_append, List.map_cons, List.nodup_middle, List.nodup_cons, List.mem_append,
      not_or] at once
    obtain ⟨⟨early, late⟩, _⟩ := once
    rw [foldlM_untouched place other later late]
    exact meant c c' there (foldlM_untouched place other first early)
  · intro absent
    exact foldlM_untouched place other run absent

end

end RoutineWatch
