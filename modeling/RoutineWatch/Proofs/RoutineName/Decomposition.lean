import Mathlib.Data.List.Basic
import RoutineWatch.RoutineName

/-!
# Taking names apart and putting them together

A name is its base followed by the mark of its type, whatever rule took it apart; one name of
the table is an exception, since its mark stands in the middle. A base with a mark is taken
apart into just these two, unless the table says that the whole is a base.

- `RoutineName.base_append_mark`: a name is its base with its mark.
- `RoutineName.split_append_mark_iff`: when a base with a mark is taken apart into these two.
- `RoutineName.decomposition_exact`: both, the unmarked type, and which two names agree.
-/
namespace RoutineWatch.RoutineName

/-! What every rule does -/

/-- A rule gives no whole name a marked type. -/
def Rule.KeepsBases : Rule → Prop
  | .exact full base type => full = base → type = .f64
  | .marked mark _ => mark ≠ ""

theorem keepsBases_of_mem_rules {rule : Rule} (member : rule ∈ rules) : rule.KeepsBases := by
  simp only [rules, List.mem_cons, List.not_mem_nil, or_false] at member
  rcases member with rfl | rfl | rfl | rfl | rfl | rfl | rfl | rfl | rfl <;>
    simp [Rule.KeepsBases]

theorem beforeMark?_eq_some_iff {mark name base : List Char} :
    beforeMark? mark name = some base ↔ name = base ++ mark ∧ base ≠ [] := by
  unfold beforeMark?
  dsimp only
  constructor
  · intro found
    split at found
    · next whole =>
      cases found
      simp only [Bool.and_eq_true, decide_eq_true_eq] at whole
      exact ⟨whole.1.symm, by simpa using whole.2⟩
    · cases found
  · rintro ⟨rfl, some⟩
    have start : (base ++ mark).take ((base ++ mark).length - mark.length) = base := by simp
    rw [start]
    simp [some]

theorem append_of_beforeMark? {mark name base : List Char}
    (found : beforeMark? mark name = some base) : base ++ mark = name :=
  (beforeMark?_eq_some_iff.1 found).1.symm

theorem Rule.type_of_whole {rule : Rule} (keeps : rule.KeepsBases) {name : String}
    {result : FloatType} (whole : rule.decompose? name = some (name, result)) : result = .f64 := by
  cases rule with
  | exact full base fixed =>
    simp only [Rule.decompose?] at whole
    split at whole
    · next same =>
      obtain ⟨rfl, rfl⟩ := Prod.mk.inj (Option.some.inj whole)
      exact keeps same.symm
    · cases whole
  | marked mark fixed =>
    obtain ⟨base, found, split⟩ := Option.map_eq_some_iff.1 whole
    obtain ⟨sameName, rfl⟩ := Prod.mk.inj split
    -- The mark would have to be empty, since nothing is left of the name besides the base.
    have parts := append_of_beforeMark? found
    rw [← sameName, String.toList_ofList] at parts
    have empty : mark.toList = [] := List.append_right_eq_self.1 parts
    exact absurd (String.toList_eq_nil_iff.1 empty) keeps

/-- A name that is its own base is of the unmarked type. -/
theorem type_of_base_eq {name : String} (own : base name = name) : type name = .f64 := by
  unfold type
  unfold base at own
  unfold split at own ⊢
  cases found : rules.findSome? fun rule => rule.decompose? name with
  | none => rfl
  | some result =>
    obtain ⟨whole, type⟩ := result
    obtain ⟨rule, member, splits⟩ := List.exists_of_findSome?_eq_some found
    rw [found] at own
    have same : whole = name := own
    subst same
    exact Rule.type_of_whole (keepsBases_of_mem_rules member) splits

/-! Names as bases with marks -/

/-- What is written after a base for a type. -/
def mark : FloatType → String
  | .f16 => "f16"
  | .f32 => "f"
  | .f64 => ""
  | .f128 => "f128"

/-- The one name that has its mark elsewhere than at its end. -/
def innerMarked : String := "lgammaf_r"

/-- The bases that end like a name with a mark. -/
def markLike : List String := ["erf", "modf"]

/-- A rule takes names apart into a base and its mark, and a rule without a mark is for
one of three names. -/
def Rule.Composes : Rule → Prop
  | .exact full base type =>
    (full ≠ innerMarked → full = base ++ RoutineName.mark type) ∧
      (type = .f64 → full = base ∧ (full ∈ markLike ∨ full = "lgamma_r"))
  | .marked suffix type => suffix = RoutineName.mark type ∧ type ≠ .f64

theorem composes_of_mem_rules {rule : Rule} (member : rule ∈ rules) : rule.Composes := by
  simp only [rules, List.mem_cons, List.not_mem_nil, or_false] at member
  rcases member with rfl | rfl | rfl | rfl | rfl | rfl | rfl | rfl | rfl <;>
    simp only [Rule.Composes] <;> decide

/-- A type other than the unmarked one has its rule. -/
theorem marked_mem_rules {type : FloatType} (has : type ≠ .f64) :
    Rule.marked (mark type) type ∈ rules := by
  revert has
  cases type <;> decide

theorem decompose?_marked (base : String) (type : FloatType) :
    (Rule.marked (mark type) type).decompose? (base ++ mark type) = some (base, type) ↔
      base ≠ "" := by
  have whole : (Rule.marked (mark type) type).decompose? (base ++ mark type) =
      (beforeMark? (mark type).toList (base.toList ++ (mark type).toList)).map
        fun start => (String.ofList start, type) := by
    rw [Rule.decompose?, String.toList_append]
  rw [whole, Option.map_eq_some_iff]
  constructor
  · rintro ⟨start, found, same⟩ rfl
    obtain ⟨parts, some⟩ := beforeMark?_eq_some_iff.1 found
    exact some (List.self_eq_append_left.1 parts)
  · intro some
    have filled : base.toList ≠ [] := fun empty => some (String.toList_eq_nil_iff.1 empty)
    exact ⟨base.toList, beforeMark?_eq_some_iff.2 ⟨rfl, filled⟩, by rw [String.ofList_toList]⟩

theorem append_mark_of_decompose? {rule : Rule} (composes : rule.Composes) {name base : String}
    {type : FloatType} (splits : rule.decompose? name = some (base, type))
    (other : name ≠ innerMarked) : base ++ mark type = name := by
  cases rule with
  | exact full fixed fixedType =>
    simp only [Rule.decompose?] at splits
    split at splits
    · next same =>
      obtain ⟨rfl, rfl⟩ := Prod.mk.inj (Option.some.inj splits)
      subst same
      exact (composes.1 other).symm
    · cases splits
  | marked suffix fixedType =>
    obtain ⟨start, found, parts⟩ := Option.map_eq_some_iff.1 splits
    obtain ⟨rfl, rfl⟩ := Prod.mk.inj parts
    obtain ⟨rfl, _⟩ := composes
    rw [← String.toList_inj, String.toList_append, String.toList_ofList]
    exact append_of_beforeMark? found

/-- A name is its base with the mark of its type behind it. -/
theorem base_append_mark {name : String} (other : name ≠ innerMarked) :
    base name ++ mark (type name) = name := by
  unfold base type split
  cases found : rules.findSome? fun rule => rule.decompose? name with
  | none => exact String.append_empty
  | some result =>
    obtain ⟨rule, member, splits⟩ := List.exists_of_findSome?_eq_some found
    exact append_mark_of_decompose? (composes_of_mem_rules member) splits other

/-- A name of the unmarked type is its own base. -/
theorem base_of_type_eq {name : String} (plain : type name = .f64) : base name = name := by
  have other : name ≠ innerMarked := by
    rintro rfl
    exact absurd plain (by decide +kernel)
  have whole := base_append_mark other
  rwa [plain, mark, String.append_empty] at whole

/-- A name of the unmarked type is a base of the table, or no rule has a mark for it. -/
theorem unmarked_cases {name : String} (plain : type name = .f64) :
    name ∈ markLike ∨ name = "lgamma_r" ∨ ∀ rule ∈ rules, rule.decompose? name = none := by
  unfold type split at plain
  cases found : rules.findSome? fun rule => rule.decompose? name with
  | none => exact Or.inr (Or.inr (List.findSome?_eq_none_iff.1 found))
  | some result =>
    rw [found] at plain
    obtain ⟨rule, member, splits⟩ := List.exists_of_findSome?_eq_some found
    have composes := composes_of_mem_rules member
    cases rule with
    | exact full fixed fixedType =>
      simp only [Rule.decompose?] at splits
      split at splits
      · next same =>
        cases splits
        subst same
        exact (composes.2 plain).2.imp_right Or.inl
      · cases splits
    | marked suffix fixedType =>
      obtain ⟨start, _, rfl⟩ := Option.map_eq_some_iff.1 splits
      exact absurd plain composes.2

/-! Marks told apart by their last letters -/

def lastLetter (type : FloatType) : Option Char := (mark type).toList.getLast?

theorem getLast?_append_mark (base : String) {type : FloatType} (has : type ≠ .f64) :
    (base ++ mark type).toList.getLast? = lastLetter type := by
  have filled : (mark type).toList ≠ [] := by
    revert has
    cases type <;> decide
  rw [String.toList_append, List.getLast?_append_of_ne_nil _ filled, lastLetter]

theorem eq_of_lastLetter {type other : FloatType} (same : lastLetter type = lastLetter other) :
    type = other := by
  revert same
  cases type <;> cases other <;> decide

/-- A name that ends in none of the three letters is no base with a mark. -/
theorem append_mark_ne {name : String} (ending : name.toList.getLast? = some 'r') (base : String)
    {type : FloatType} (has : type ≠ .f64) : base ++ mark type ≠ name := by
  rintro rfl
  rw [getLast?_append_mark base has] at ending
  revert ending
  cases type <;> decide

/-- A base with a mark is taken apart into these two, unless the table has the whole as a
base. -/
theorem split_append_mark_iff (base : String) {type : FloatType} (has : type ≠ .f64) :
    split (base ++ mark type) = (base, type) ↔ base ≠ "" ∧ base ++ mark type ∉ markLike := by
  constructor
  · intro splits
    constructor
    · rintro rfl
      revert has splits
      cases type <;> decide +kernel
    · intro member
      have plain : ∀ name ∈ markLike, (split name).2 = .f64 := by decide +kernel
      rw [← plain _ member, splits] at has
      exact has rfl
  · rintro ⟨filled, noBase⟩
    have found := (decompose?_marked base type).2 filled
    have marked : RoutineName.type (base ++ mark type) ≠ .f64 := by
      intro plain
      rcases unmarked_cases plain with listed | same | none
      · exact noBase listed
      · exact append_mark_ne (by decide) base has same
      · rw [none _ (marked_mem_rules has)] at found
        cases found
    have notInner : base ++ mark type ≠ innerMarked := append_mark_ne (by decide) base has
    have whole := base_append_mark notInner
    have last := congrArg (fun text : String => text.toList.getLast?) whole
    rw [getLast?_append_mark _ marked, getLast?_append_mark base has] at last
    have sameType := eq_of_lastLetter last
    rw [sameType, String.append_left_inj] at whole
    exact Prod.ext whole sameType

/-- Taking apart and putting together undo each other up to the table: what a base with a
mark is taken apart into, that the unmarked type is the type of the bases, that a name is its
base with its mark, and which two names agree in base and type. -/
theorem decomposition_exact :
    (∀ stem float, float ≠ .f64 → (split (stem ++ mark float) = (stem, float) ↔
      stem ≠ "" ∧ stem ++ mark float ≠ "erf" ∧ stem ++ mark float ≠ "modf")) ∧
    (split "erf" = ("erf", .f64) ∧ split "modf" = ("modf", .f64)) ∧
    (∀ name, type name = .f64 ↔ base name = name) ∧
    (∀ name, base name ++ mark (type name) = name ↔ name ≠ "lgammaf_r") ∧
    ∀ name other, name ≠ other → (split name = split other ↔
      name = "lgammaf_r" ∧ other = "lgamma_rf" ∨ name = "lgamma_rf" ∧ other = "lgammaf_r") := by
  have inner : split "lgammaf_r" = ("lgamma_r", .f32) := by decide +kernel
  have twin : split "lgamma_rf" = ("lgamma_r", .f32) := by decide +kernel
  have twinOf : ∀ name, name ≠ innerMarked → split name = ("lgamma_r", .f32) →
      name = "lgamma_rf" := by
    intro name outer same
    have whole := base_append_mark outer
    rw [base, type, same] at whole
    exact whole.symm
  refine ⟨fun stem float has => ?_, by decide +kernel,
    fun name => ⟨base_of_type_eq, type_of_base_eq⟩,
    fun name => ⟨?_, base_append_mark⟩, fun name other distinct => ⟨fun same => ?_, ?_⟩⟩
  · rw [split_append_mark_iff stem has]
    simp [markLike]
  · rintro whole rfl
    exact absurd whole (by decide +kernel)
  · by_cases first : name = innerMarked
    · subst first
      refine Or.inl ⟨rfl, twinOf other (Ne.symm distinct) ?_⟩
      rw [← same]
      exact inner
    · by_cases second : other = innerMarked
      · subst second
        exact Or.inr ⟨twinOf name first (same.trans inner), rfl⟩
      · have left := base_append_mark first
        have right := base_append_mark second
        rw [base, type, same] at left
        exact absurd (left.symm.trans right) distinct
  · rintro (⟨rfl, rfl⟩ | ⟨rfl, rfl⟩)
    · exact inner.trans twin.symm
    · exact twin.trans inner.symm

end RoutineWatch.RoutineName
