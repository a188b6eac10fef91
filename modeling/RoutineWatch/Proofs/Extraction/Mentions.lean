import RoutineWatch.Extraction

/-!
# The search for definition texts

The search walks a text once and reports a name wherever the name's definition text ends, so
names that are the beginnings of other names are reported with them.

- `Extraction.mem_mentions_iff`: a name is reported exactly if its definition text occurs.
-/
namespace RoutineWatch.Extraction

theorem mem_searchTable {functions : TextSet} {name : String} {text : List Char} :
    (name, text) ∈ searchTable functions ↔
      name ∈ functions ∧ text = (definitionText name).reverse := by
  unfold searchTable
  rw [List.mem_mergeSort, List.mem_map]
  constructor
  · rintro ⟨_, member, same⟩
    cases same
    exact ⟨member, rfl⟩
  · rintro ⟨member, rfl⟩
    exact ⟨name, member, rfl⟩

theorem mem_endingHere {names : List (String × List Char)} {reversed : List Char}
    {name : String} :
    name ∈ endingHere names reversed ↔ ∃ text, (name, text) ∈ names ∧ text <+: reversed := by
  unfold endingHere
  rw [List.mem_map]
  constructor
  · rintro ⟨e, kept, rfl⟩
    obtain ⟨member, ends⟩ := List.mem_filter.1 kept
    exact ⟨e.2, member, List.isPrefixOf_iff_prefix.1 ends⟩
  · rintro ⟨text, member, ends⟩
    exact ⟨(name, text), List.mem_filter.2 ⟨member, List.isPrefixOf_iff_prefix.2 ends⟩, rfl⟩

/-- A name is reported after each nonempty beginning of the text that its search text
ends. -/
theorem mem_mentionsInOrder {names : List (String × List Char)} {reversed text : List Char}
    {name : String} :
    name ∈ mentionsInOrder names reversed text ↔
      ∃ start, start <+: text ∧ start ≠ [] ∧
        name ∈ endingHere names (start.reverse ++ reversed) := by
  induction text generalizing reversed with
  | nil =>
    constructor
    · intro member
      cases member
    · rintro ⟨start, begins, some, _⟩
      exact absurd (List.prefix_nil.1 begins) some
  | cons c cs ih =>
    rw [mentionsInOrder, List.mem_append, ih]
    constructor
    · rintro (first | ⟨start, begins, _, member⟩)
      · exact ⟨[c], (List.prefix_append [c] cs), by simp, first⟩
      · refine ⟨c :: start, (List.prefix_cons_inj c).2 begins, by simp, ?_⟩
        simpa using member
    · rintro ⟨start, begins, some, member⟩
      obtain ⟨d, rest, rfl⟩ := List.exists_cons_of_ne_nil some
      obtain ⟨rfl, later⟩ := List.cons_prefix_cons.1 begins
      by_cases more : rest = []
      · subst rest
        exact Or.inl member
      · exact Or.inr ⟨rest, later, more, by simpa using member⟩

/-- A public function is reported exactly if its definition text occurs. -/
theorem mem_mentions_iff {functions : TextSet} {text : List Char} {name : String} :
    name ∈ mentionsInOrder (searchTable functions) [] text ↔
      name ∈ functions ∧ definitionText name <:+: text := by
  rw [mem_mentionsInOrder]
  constructor
  · rintro ⟨start, begins, _, member⟩
    obtain ⟨_, entry, ends⟩ := mem_endingHere.1 member
    obtain ⟨member, rfl⟩ := mem_searchTable.1 entry
    rw [List.append_nil, List.reverse_prefix] at ends
    exact ⟨member, List.infix_iff_suffix_prefix.2 ⟨start, ends, begins⟩⟩
  · rintro ⟨member, occurs⟩
    obtain ⟨start, ends, begins⟩ := List.infix_iff_suffix_prefix.1 occurs
    refine ⟨start, begins, ?_, mem_endingHere.2 ⟨_, mem_searchTable.2 ⟨member, rfl⟩, ?_⟩⟩
    · rintro rfl
      have empty := List.suffix_nil.1 ends
      simp [definitionText] at empty
    · rw [List.append_nil, List.reverse_prefix]
      exact ends

end RoutineWatch.Extraction
