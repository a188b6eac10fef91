import RoutineWatch.Text.Utf8

/-!
# Globs

Globs: which names they match, as a relation, and a matcher that decides it. A name is
a row of bytes; the matcher keeps the set of all rests that can be left of it.

- `Glob.Matches`: the relation.
- `Glob.accepts_iff`: the matcher decides it.
-/
namespace RoutineWatch

/-- A set of bytes: those in some range, or those in none. -/
structure ByteClass where
  negated : Bool
  ranges : List (UInt8 × UInt8)
deriving DecidableEq, Repr

namespace ByteClass

/-- Whether a byte is in the set. -/
def holds (c : ByteClass) (b : UInt8) : Bool :=
  (c.ranges.any fun r => r.1 ≤ b && b ≤ r.2) != c.negated

def all : ByteClass := ⟨true, []⟩

def only (b : UInt8) : ByteClass := ⟨false, [(b, b)]⟩

end ByteClass

inductive Glob where
  | blank
  | byte (c : ByteClass)
  | star
  /-- Matches what the first matches, followed by what the second matches. -/
  | both (a b : Glob)
  /-- Matches what one of the two matches. -/
  | either (a b : Glob)
deriving DecidableEq, Repr

namespace Glob

/-- What a glob matches. -/
inductive Matches : Glob → Bytes → Prop where
  | blank : Matches .blank []
  | byte {c : ByteClass} {b : UInt8} (h : c.holds b = true) : Matches (.byte c) [b]
  | star (name : Bytes) : Matches .star name
  | both {a b : Glob} {s t : Bytes} (ha : Matches a s) (hb : Matches b t) :
      Matches (.both a b) (s ++ t)
  | left {a b : Glob} {s : Bytes} (h : Matches a s) : Matches (.either a b) s
  | right {a b : Glob} {s : Bytes} (h : Matches b s) : Matches (.either a b) s

/-- A row of bytes with all that are left when bytes are dropped from its front. -/
def tails : Bytes → List Bytes
  | [] => [[]]
  | b :: bytes => (b :: bytes) :: tails bytes

/-- What can be left of a name after a part that the glob matches. -/
def rests : Glob → Bytes → List Bytes
  | .blank, name => [name]
  | .byte _, [] => []
  | .byte c, b :: name => if c.holds b then [name] else []
  | .star, name => tails name
  | .both a b, name => ((rests a name).flatMap (rests b)).eraseDups
  | .either a b, name => (rests a name ++ rests b name).eraseDups

/-- Whether a glob matches a name. -/
def accepts (g : Glob) (name : Bytes) : Bool := (rests g name).contains []

theorem mem_tails {rest name : Bytes} : rest ∈ tails name ↔ ∃ part, name = part ++ rest := by
  induction name with
  | nil => simp [tails]
  | cons b name ih =>
    simp only [tails, List.mem_cons, ih]
    constructor
    · rintro (rfl | ⟨part, rfl⟩)
      · exact ⟨[], rfl⟩
      · exact ⟨b :: part, rfl⟩
    · rintro ⟨_ | ⟨c, part⟩, h⟩
      · exact .inl h.symm
      · injection h with _ h
        exact .inr ⟨part, h⟩

theorem mem_rests {g : Glob} {rest name : Bytes} :
    rest ∈ rests g name ↔ ∃ part, name = part ++ rest ∧ Matches g part := by
  induction g generalizing name rest with
  | blank =>
    simp only [rests, List.mem_singleton]
    constructor
    · rintro rfl
      exact ⟨[], rfl, .blank⟩
    · rintro ⟨_, rfl, ⟨⟩⟩
      rfl
  | byte c =>
    cases name with
    | nil =>
      simp only [rests, List.not_mem_nil, false_iff]
      rintro ⟨_, h, ⟨_⟩⟩
      cases h
    | cons b name =>
      simp only [rests]
      constructor
      · split
        · next h =>
          rw [List.mem_singleton]
          rintro rfl
          exact ⟨[b], rfl, .byte h⟩
        · exact fun h => (List.not_mem_nil h).elim
      · rintro ⟨_, h, m⟩
        cases m with
        | byte hb =>
          injection h with h h'
          subst h h'
          simp [hb]
  | star =>
    exact mem_tails.trans
      ⟨fun ⟨part, h⟩ => ⟨part, h, .star part⟩, fun ⟨part, h, _⟩ => ⟨part, h⟩⟩
  | both a b iha ihb =>
    simp only [rests, List.mem_eraseDups, List.mem_flatMap, iha, ihb]
    constructor
    · rintro ⟨_, ⟨s, rfl, ha⟩, t, rfl, hb⟩
      exact ⟨s ++ t, by simp, .both ha hb⟩
    · rintro ⟨_, rfl, m⟩
      cases m with
      | @both _ _ s t ha hb => exact ⟨t ++ rest, ⟨s, by simp, ha⟩, t, rfl, hb⟩
  | either a b iha ihb =>
    simp only [rests, List.mem_eraseDups, List.mem_append, iha, ihb]
    constructor
    · rintro (⟨s, rfl, h⟩ | ⟨s, rfl, h⟩)
      · exact ⟨s, rfl, .left h⟩
      · exact ⟨s, rfl, .right h⟩
    · rintro ⟨_, rfl, m⟩
      cases m with
      | left h => exact .inl ⟨_, rfl, h⟩
      | right h => exact .inr ⟨_, rfl, h⟩

/-- The matcher decides the relation. -/
theorem accepts_iff {g : Glob} {name : Bytes} : accepts g name = true ↔ Matches g name := by
  simp [accepts, mem_rests]

/-- One glob after the other; an empty one adds nothing. -/
def append : Glob → Glob → Glob
  | .blank, b => b
  | a, .blank => a
  | a, b => .both a b

/-- Globs one after the other. They are joined from the left, so that the rests of a
front part are found once and not once for each way to match what is before it. -/
def sequence (parts : List Glob) : Glob := parts.foldl append .blank

/-- What one of some globs matches. An empty alternative does not count, and without
any other one only the empty name is matched. -/
def choice (branches : List Glob) : Glob :=
  match branches.filter (· ≠ .blank) with
  | [] => .blank
  | g :: gs => gs.foldl .either g

/-- Matches exactly the given bytes. -/
def exactly (bytes : Bytes) : Glob := sequence (bytes.map fun b => .byte (.only b))

end Glob

end RoutineWatch
