import RoutineWatch.Proofs.Git.Tree

/-!
# What the deltas between two trees say

The walk through two trees at once yields, path by path, what the two leaves at the path ask
for, and nothing else.

- `Delta.mem_between`: the deltas of two tables of leaves in order are those of each path by
  what the two tables have there (`Delta.atPath`).
- `Tree.exists_delta_iff`: the paths of the deltas between two trees are those of the rows of
  names at which one tree has a leaf that the other has not.
- `Tree.newSide_of_mem_deltas`: since both sides of a delta name its path, the old side is
  never asked for it, also where the leaf is gone.
-/
namespace RoutineWatch
open RoutineWatch.Path (joinParts)

namespace Delta

/-- What is said of a path by the leaves that two trees have there. -/
def atPath (path : Bytes) : Option Leaf → Option Leaf → List Delta
  | none, none => []
  | none, some new => [added path new]
  | some old, none => [deleted path old]
  | some old, some new => matched path old new

theorem matched_eq_nil_iff {path : Bytes} {old new : Leaf} :
    matched path old new = [] ↔ old = new := by
  unfold matched
  by_cases types : old.kind.type = new.kind.type
  · rw [if_neg (not_not.2 types)]
    by_cases same : old = new <;> simp [same]
  · have differ : old ≠ new := fun same => types (by rw [same])
    simp [types, differ]

/-- A path is passed over exactly if the two trees have the same there. -/
theorem atPath_eq_nil_iff {path : Bytes} {old new : Option Leaf} :
    atPath path old new = [] ↔ old = new := by
  cases old with
  | none => cases new <;> simp [atPath]
  | some old =>
    cases new with
    | none => simp [atPath]
    | some new => rw [atPath, matched_eq_nil_iff, Option.some_inj]

theorem mem_atPath_none_left {d : Delta} {path : Bytes} {new : Option Leaf} :
    d ∈ atPath path none new ↔ ∃ leaf, new = some leaf ∧ d = added path leaf := by
  cases new <;> simp [atPath]

theorem mem_atPath_none_right {d : Delta} {path : Bytes} {old : Option Leaf} :
    d ∈ atPath path old none ↔ ∃ leaf, old = some leaf ∧ d = deleted path leaf := by
  cases old <;> simp [atPath]

/-- Each delta names its path on the new side. -/
theorem path?_of_mem_atPath {path : Bytes} {old new : Option Leaf} {d : Delta}
    (member : d ∈ atPath path old new) : d.new.path = some path ∧ d.path? = some ⟨path⟩ := by
  have named : ∀ {d : Delta}, d.new.path = some path →
      d.new.path = some path ∧ d.path? = some ⟨path⟩ := by
    intro d side
    exact ⟨side, by rw [path?, side]; rfl⟩
  apply named
  cases old with
  | none =>
    cases new with
    | none => cases member
    | some new =>
      cases List.mem_singleton.1 member
      rfl
  | some old =>
    cases new with
    | none =>
      cases List.mem_singleton.1 member
      rfl
    | some new =>
      rw [atPath, matched] at member
      split at member
      · rcases List.mem_cons.1 member with rfl | second
        · rfl
        · cases List.mem_singleton.1 second
          rfl
      · split at member
        · cases member
        · cases List.mem_singleton.1 member
          rfl

/-- One path more than two tables have adds what is said of it. -/
theorem exists_atPath_iff {d : Delta} {path : Bytes} {olds news olds' news' : Bytes → Option Leaf}
    (others : ∀ other, other ≠ path → olds other = olds' other ∧ news other = news' other)
    (free : olds' path = none ∧ news' path = none) :
    (∃ other, d ∈ atPath other (olds other) (news other)) ↔
      d ∈ atPath path (olds path) (news path) ∨
        ∃ other, d ∈ atPath other (olds' other) (news' other) := by
  constructor
  · rintro ⟨other, member⟩
    by_cases here : other = path
    · subst here
      exact Or.inl member
    · obtain ⟨old, new⟩ := others other here
      exact Or.inr ⟨other, old ▸ new ▸ member⟩
  · rintro (member | ⟨other, member⟩)
    · exact ⟨path, member⟩
    · have apart : other ≠ path := by
        rintro rfl
        rw [free.1, free.2] at member
        cases member
      obtain ⟨old, new⟩ := others other apart
      exact ⟨other, by rwa [old, new]⟩

theorem lookup_cons_of_ne {es : List (Bytes × Leaf)} {e : Bytes × Leaf} {path : Bytes}
    (apart : path ≠ e.1) : (e :: es).lookup path = es.lookup path := by
  obtain ⟨other, value⟩ := e
  rw [List.lookup_cons, beq_false_of_ne apart]

theorem lookup_cons_self {es : List (Bytes × Leaf)} {e : Bytes × Leaf} :
    (e :: es).lookup e.1 = some e.2 := by
  obtain ⟨path, value⟩ := e
  rw [List.lookup_cons, beq_self_eq_true]

open Tree (lookup_of_lt lookup_eq_some_iff)

/-- What is said of each leaf of a table in order is said of the leaves by their paths. -/
theorem mem_map_iff {es : List (Bytes × Leaf)} (ordered : es.Pairwise fun a b => a.1 < b.1)
    {said : Bytes → Leaf → Delta} {d : Delta} :
    (d ∈ es.map fun e => said e.1 e.2) ↔
      ∃ path leaf, es.lookup path = some leaf ∧ d = said path leaf := by
  rw [List.mem_map]
  constructor
  · rintro ⟨e, standing, rfl⟩
    exact ⟨e.1, e.2, (lookup_eq_some_iff ordered).2 standing, rfl⟩
  · rintro ⟨path, leaf, found, rfl⟩
    exact ⟨(path, leaf), (lookup_eq_some_iff ordered).1 found, rfl⟩

/-- The deltas of two tables of leaves in order are those of each path. -/
theorem mem_between {olds news : List (Bytes × Leaf)}
    (before : olds.Pairwise fun a b => a.1 < b.1) (after : news.Pairwise fun a b => a.1 < b.1)
    {d : Delta} :
    d ∈ between olds news ↔ ∃ path, d ∈ atPath path (olds.lookup path) (news.lookup path) := by
  fun_induction between olds news with
  | case1 news => simp only [mem_map_iff after, List.lookup_nil, mem_atPath_none_left]
  | case2 old olds => simp only [mem_map_iff before, List.lookup_nil, mem_atPath_none_right]
  | case3 old olds new news less ih =>
    obtain ⟨first, olds'⟩ := List.pairwise_cons.1 before
    obtain ⟨first', _⟩ := List.pairwise_cons.1 after
    have less := bytesLess_iff.1 less
    -- The smaller path is not in the other tree.
    have absent : (new :: news).lookup old.1 = none :=
      lookup_of_lt (List.forall_mem_cons.2 ⟨less, fun e m => List.lt_trans less (first' e m)⟩)
    rw [List.mem_cons, ih olds' after]
    rw [exists_atPath_iff (fun other apart => ⟨lookup_cons_of_ne apart, rfl⟩)
      ⟨lookup_of_lt first, absent⟩, lookup_cons_self, absent]
    simp [atPath]
  | case4 old olds new news _ less ih =>
    obtain ⟨first, _⟩ := List.pairwise_cons.1 before
    obtain ⟨first', news'⟩ := List.pairwise_cons.1 after
    have less := bytesLess_iff.1 less
    have absent : (old :: olds).lookup new.1 = none :=
      lookup_of_lt (List.forall_mem_cons.2 ⟨less, fun e m => List.lt_trans less (first e m)⟩)
    rw [List.mem_cons, ih before news']
    rw [exists_atPath_iff (fun other apart => ⟨rfl, lookup_cons_of_ne apart⟩)
      ⟨absent, lookup_of_lt first'⟩, lookup_cons_self, absent]
    simp [atPath]
  | case5 old olds new news notLess notMore ih =>
    obtain ⟨first, olds'⟩ := List.pairwise_cons.1 before
    obtain ⟨first', news'⟩ := List.pairwise_cons.1 after
    have same : old.1 = new.1 :=
      List.le_antisymm (fun more => notMore (bytesLess_iff.2 more))
        fun less => notLess (bytesLess_iff.2 less)
    have found : (new :: news).lookup old.1 = some new.2 := same ▸ lookup_cons_self
    rw [List.mem_append, ih olds' news']
    rw [exists_atPath_iff
      (fun other apart => ⟨lookup_cons_of_ne apart, lookup_cons_of_ne (same ▸ apart)⟩)
      ⟨lookup_of_lt first, lookup_of_lt fun e m => same ▸ first' e m⟩, lookup_cons_self, found]
    rfl

end Delta

namespace Tree

/-- Two walks differ at the paths of the rows of names at which the trees do. -/
theorem lookup_ne_iff {old new : Tree} (before : old.isWellFormed = true)
    (after : new.isWellFormed = true) {bytes : Bytes} :
    (old.walk []).lookup bytes ≠ (new.walk []).lookup bytes ↔
      ∃ way, old.leaf? way ≠ new.leaf? way ∧ bytes = joinParts way := by
  constructor
  · intro differ
    -- One of the walks has a leaf at the path, so there is a row of names that spells it.
    have somewhere : ∃ way, way ≠ [] ∧ (∀ name ∈ way, slash ∉ name) ∧ bytes = joinParts way := by
      cases left : (old.walk []).lookup bytes with
      | some leaf => exact way_of_lookup before left
      | none =>
        cases right : (new.walk []).lookup bytes with
        | some leaf => exact way_of_lookup after right
        | none => exact absurd (left.trans right.symm) differ
    obtain ⟨way, more, whole, rfl⟩ := somewhere
    rw [lookup_walk before more whole, lookup_walk after more whole] at differ
    exact ⟨way, differ, rfl⟩
  · rintro ⟨way, differ, rfl⟩
    have proper : way ≠ [] ∧ ∀ name ∈ way, slash ∉ name := by
      cases left : old.leaf? way with
      | some leaf => exact way_of_leaf? before left
      | none =>
        cases right : new.leaf? way with
        | some leaf => exact way_of_leaf? after right
        | none => exact absurd (left.trans right.symm) differ
    rwa [lookup_walk before proper.1 proper.2, lookup_walk after proper.1 proper.2]

section
variable {old new : Tree} (before : old.isWellFormed = true) (after : new.isWellFormed = true)
include before after

/-- The deltas between two trees are those of each path by what the two walks have there. -/
theorem mem_deltas_iff {d : Delta} :
    d ∈ old.deltas new ↔ ∃ bytes, d ∈ Delta.atPath bytes
      ((old.walk []).lookup bytes) ((new.walk []).lookup bytes) :=
  Delta.mem_between (walk_ascending before []) (walk_ascending after [])

/-- The old side of a delta is never needed for its path, not even where the leaf is gone. -/
theorem newSide_of_mem_deltas {d : Delta} (member : d ∈ old.deltas new) :
    ∃ bytes, d.new.path = some bytes ∧ d.path? = some ⟨bytes⟩ := by
  obtain ⟨bytes, said⟩ := (mem_deltas_iff before after).1 member
  exact ⟨bytes, Delta.path?_of_mem_atPath said⟩

/-- The paths of the deltas between two trees are those at which one of them has a leaf that
the other has not. -/
theorem exists_delta_iff {path : Path} :
    (∃ d ∈ old.deltas new, d.path? = some path) ↔
      ∃ way, old.leaf? way ≠ new.leaf? way ∧ path = ⟨joinParts way⟩ := by
  constructor
  · rintro ⟨d, member, named⟩
    obtain ⟨bytes, said⟩ := (mem_deltas_iff before after).1 member
    have differ : (old.walk []).lookup bytes ≠ (new.walk []).lookup bytes :=
      fun same => List.ne_nil_of_mem said (Delta.atPath_eq_nil_iff.2 same)
    obtain ⟨way, apart, rfl⟩ := (lookup_ne_iff before after).1 differ
    rw [(Delta.path?_of_mem_atPath said).2] at named
    exact ⟨way, apart, (Option.some.inj named).symm⟩
  · rintro ⟨way, apart, rfl⟩
    have differ := (lookup_ne_iff before after).2 ⟨way, apart, rfl⟩
    obtain ⟨d, said⟩ := List.exists_mem_of_ne_nil _ (mt Delta.atPath_eq_nil_iff.1 differ)
    exact ⟨d, (mem_deltas_iff before after).2 ⟨_, said⟩, (Delta.path?_of_mem_atPath said).2⟩

end

end Tree

end RoutineWatch
