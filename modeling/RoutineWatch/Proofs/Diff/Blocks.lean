import Mathlib.Data.List.Chain
import RoutineWatch.Diff.Hunk
import RoutineWatch.Proofs.Diff.Idle

/-!
# The blocks of a script

The blocks lie where the steps do, one after the other, and kept and changed ones alternate.
Their changes are those of the script.

- `Diff.blocks_covers`: where they lie.
- `Diff.alternate_blocks`: that they alternate.
-/
namespace RoutineWatch.Diff

/-- A block has lines, starts at its place in every text that it has lines in, and if it is
kept it is the same in both. If nothing is removed, it starts at its place in the old text
even if it has no lines there, and so it does in the new one if nothing is added. -/
structure Block.Stands (old new : Lines) (noRemoved noAdded : Prop) (i j : Nat) (b : Block) :
    Prop where
  filled : 0 < b.oldSize + b.newSize
  oldPlace : 0 < b.oldSize ∨ noRemoved → b.oldStart = i
  newPlace : 0 < b.newSize ∨ noAdded → b.newStart = j
  sizes : b.kept = true → b.oldSize = b.newSize
  agree : b.kept = true → Agree old new i j b.oldSize

/-- How the blocks of a script lie in the texts. -/
def pieces (old new : Lines) (noRemoved noAdded : Prop) : Layout Block :=
  ⟨Block.oldSize, Block.newSize, Block.Stands old new noRemoved noAdded⟩

section
variable {old new : Lines} {noRemoved noAdded : Prop}

@[simp] theorem oldSize_pieces (b : Block) :
    (pieces old new noRemoved noAdded).oldSize b = b.oldSize := rfl

@[simp] theorem newSize_pieces (b : Block) :
    (pieces old new noRemoved noAdded).newSize b = b.newSize := rfl

@[simp] theorem stands_pieces {i j : Nat} {b : Block} :
    (pieces old new noRemoved noAdded).Stands i j b ↔ b.Stands old new noRemoved noAdded i j :=
  Iff.rfl

/-! One more step -/

theorem oldSize_ofEdit (e : Edit) : (Block.ofEdit e).oldSize = e.oldSize := by
  obtain ⟨kind, a, b, n⟩ := e
  cases kind <;> rfl

theorem newSize_ofEdit (e : Edit) : (Block.ofEdit e).newSize = e.newSize := by
  obtain ⟨kind, a, b, n⟩ := e
  cases kind <;> rfl

theorem kept_ofEdit (e : Edit) : (Block.ofEdit e).kept = decide (e.kind = .keep) := by
  obtain ⟨kind, a, b, n⟩ := e
  cases kind <;> rfl

theorem oldSize_extend (b : Block) (e : Edit) :
    (b.extend e).oldSize = b.oldSize + e.oldSize := by
  obtain ⟨kind, a, b, n⟩ := e
  cases kind <;> rfl

theorem newSize_extend (b : Block) (e : Edit) :
    (b.extend e).newSize = b.newSize + e.newSize := by
  obtain ⟨kind, a, b, n⟩ := e
  cases kind <;> rfl

theorem kept_extend (b : Block) (e : Edit) : (b.extend e).kept = b.kept := by
  obtain ⟨kind, a, b, n⟩ := e
  cases kind <;> rfl

/-- A step by itself is a block. -/
theorem stands_ofEdit {i j : Nat} {e : Edit}
    (stands : (firmSteps old new noRemoved noAdded).Stands i j e) :
    (Block.ofEdit e).Stands old new noRemoved noAdded i j := by
  obtain ⟨stands, firmOld, firmNew⟩ := stands
  obtain ⟨kind, a, b, n⟩ := e
  cases kind with
  | keep =>
    obtain ⟨some, rfl, rfl, agree⟩ := Edit.stands_keep.1 stands
    exact ⟨Nat.add_pos_left some _, fun _ => rfl, fun _ => rfl, fun _ => rfl, fun _ => agree⟩
  | delete =>
    obtain ⟨some, rfl⟩ := Edit.stands_delete.1 stands
    exact ⟨some, fun _ => rfl, fun cases => firmNew (cases.resolve_left (Nat.lt_irrefl 0)),
      nofun, nofun⟩
  | insert =>
    obtain ⟨some, rfl⟩ := Edit.stands_insert.1 stands
    exact ⟨Nat.add_pos_right _ some, fun cases => firmOld (cases.resolve_left (Nat.lt_irrefl 0)),
      fun _ => rfl, nofun, nofun⟩

/-- A step after a block of its kind makes the block longer. -/
theorem stands_extend {i j : Nat} {b : Block} {e : Edit}
    (block : b.Stands old new noRemoved noAdded i j)
    (stands : (firmSteps old new noRemoved noAdded).Stands (i + b.oldSize) (j + b.newSize) e)
    (same : b.kept = decide (e.kind = .keep)) :
    (b.extend e).Stands old new noRemoved noAdded i j := by
  obtain ⟨filled, oldPlace, newPlace, sizes, agree⟩ := block
  obtain ⟨stands, -⟩ := stands
  obtain ⟨kind, a, c, n⟩ := e
  cases kind with
  | keep =>
    have kept : b.kept = true := same
    have size := sizes kept
    obtain ⟨some, rfl, rfl, agree'⟩ := Edit.stands_keep.1 stands
    rw [← size] at agree'
    exact ⟨Nat.add_pos_left (Nat.add_pos_right _ some) _, fun _ => oldPlace (.inl (by omega)),
      fun _ => newPlace (.inl (by omega)), fun _ => congrArg (· + n) size,
      fun _ => agree_add.2 ⟨agree kept, agree'⟩⟩
  | delete =>
    have changed : b.kept ≠ true := by simp [same]
    obtain ⟨some, rfl⟩ := Edit.stands_delete.1 stands
    refine ⟨Nat.add_pos_left (Nat.add_pos_right _ some) _, fun _ => ?_, newPlace,
      fun kept => absurd kept changed, fun kept => absurd kept changed⟩
    simp only [Block.extend]
    split
    · next none => rw [none, Nat.add_zero]
    · next lines => exact oldPlace (.inl (Nat.pos_of_ne_zero lines))
  | insert =>
    have changed : b.kept ≠ true := by simp [same]
    obtain ⟨some, rfl⟩ := Edit.stands_insert.1 stands
    refine ⟨Nat.add_pos_right _ (Nat.add_pos_right _ some), oldPlace, fun _ => ?_,
      fun kept => absurd kept changed, fun kept => absurd kept changed⟩
    simp only [Block.extend]
    split
    · next none => rw [none, Nat.add_zero]
    · next lines => exact newPlace (.inl (Nat.pos_of_ne_zero lines))

/-- A step makes the last block longer if that is of its kind, and else a new one. -/
theorem addEdit_cases (bs : List Block) (e : Edit) :
    (∃ b before, bs = b :: before ∧ b.kept = decide (e.kind = .keep) ∧
        addEdit bs e = b.extend e :: before) ∨
      (∀ b ∈ bs.head?, b.kept ≠ decide (e.kind = .keep)) ∧ addEdit bs e = Block.ofEdit e :: bs := by
  cases bs with
  | nil => exact .inr ⟨nofun, rfl⟩
  | cons b before =>
    by_cases same : b.kept = decide (e.kind = .keep)
    · exact .inl ⟨b, before, rfl, same, if_pos same⟩
    · exact .inr ⟨by simpa using same, if_neg same⟩

/-- One more step behind blocks that are listed backwards. -/
theorem addEdit_covers {m n : Nat} {bs : List Block} {e : Edit}
    (covers : (pieces old new noRemoved noAdded).Covers 0 0 m n bs.reverse)
    (stands : (firmSteps old new noRemoved noAdded).Stands m n e) :
    (pieces old new noRemoved noAdded).Covers 0 0 (m + e.oldSize) (n + e.newSize)
      (addEdit bs e).reverse := by
  obtain ⟨b, before, rfl, same, eq⟩ | ⟨-, eq⟩ := addEdit_cases bs e
  · obtain ⟨lies, rfl, rfl⟩ := covers
    simp only [List.reverse_cons, Layout.lies_append, Layout.oldSpan_append,
      Layout.newSpan_append, Layout.lies_cons, Layout.oldSpan_cons, Layout.newSpan_cons,
      Layout.oldSpan_nil, Layout.newSpan_nil, Nat.zero_add, Nat.add_zero] at lies stands ⊢
    have longer := stands_extend lies.2.1 stands same
    rw [eq, List.reverse_cons]
    exact ⟨(Layout.lies_append _).2 ⟨lies.1, by simpa using longer⟩,
      by simp [oldSize_extend, Nat.add_assoc], by simp [newSize_extend, Nat.add_assoc]⟩
  · have single : (pieces old new noRemoved noAdded).Covers (0 + m) (0 + n) e.oldSize e.newSize
        [Block.ofEdit e] := by
      rw [Nat.zero_add, Nat.zero_add]
      exact ⟨⟨stands_ofEdit stands, trivial⟩, by simp [oldSize_ofEdit], by simp [newSize_ofEdit]⟩
    rw [eq, List.reverse_cons]
    exact covers.append single

/-- The blocks of a script lie where its steps do. -/
theorem blocks_covers {m n : Nat} {script : List Edit}
    (covers : (firmSteps old new noRemoved noAdded).Covers 0 0 m n script) :
    (pieces old new noRemoved noAdded).Covers 0 0 m n (blocks script) := by
  have fold (k l : Nat) (bs : List Block) (script : List Edit)
      (before : (pieces old new noRemoved noAdded).Covers 0 0 k l bs.reverse)
      (lies : (firmSteps old new noRemoved noAdded).Lies k l script) :
      (pieces old new noRemoved noAdded).Covers 0 0
        (k + (firmSteps old new noRemoved noAdded).oldSpan script)
        (l + (firmSteps old new noRemoved noAdded).newSpan script)
        (script.foldl addEdit bs).reverse := by
    induction script generalizing k l bs with
    | nil => exact before
    | cons e es ih =>
      have step := ih _ _ _ (addEdit_covers before lies.1) lies.2
      simpa [Nat.add_assoc] using step
  obtain ⟨lies, rfl, rfl⟩ := covers
  simpa [blocks] using fold 0 0 [] script ⟨trivial, rfl, rfl⟩ lies

end

/-! Kept and changed blocks alternate -/

/-- Of two blocks next to each other one is kept and the other one changed. -/
def Alternate (bs : List Block) : Prop := bs.IsChain (·.kept ≠ ·.kept)

/-- Only which blocks are kept counts. -/
theorem alternate_congr {bs cs : List Block} (same : bs.map (·.kept) = cs.map (·.kept)) :
    Alternate bs ↔ Alternate cs := by
  have flags (bs : List Block) : Alternate bs ↔ (bs.map (·.kept)).IsChain (· ≠ ·) :=
    (List.isChain_map _).symm
  rw [flags, flags, same]

theorem alternate_reverse {bs : List Block} : Alternate bs.reverse ↔ Alternate bs := by
  simp [Alternate, List.isChain_reverse, ne_comm]

theorem alternate_addEdit {bs : List Block} (alternate : Alternate bs) (e : Edit) :
    Alternate (addEdit bs e) := by
  unfold Alternate at alternate ⊢
  obtain ⟨b, before, rfl, same, eq⟩ | ⟨other, eq⟩ := addEdit_cases bs e
  · rw [eq]
    rw [List.isChain_cons] at alternate ⊢
    rwa [kept_extend]
  · rw [eq, List.isChain_cons]
    exact ⟨fun b head => by simpa [kept_ofEdit] using (other b head).symm, alternate⟩

theorem alternate_blocks (script : List Edit) : Alternate (blocks script) := by
  have fold (bs : List Block) (script : List Edit) (before : Alternate bs) :
      Alternate (script.foldl addEdit bs) := by
    induction script generalizing bs with
    | nil => exact before
    | cons e es ih => exact ih _ (alternate_addEdit before e)
  exact alternate_reverse.2 (fold [] script List.isChain_nil)

/-! Changes -/

/-- A block that takes something away. -/
def Block.Removes (b : Block) : Prop := b.kept = false ∧ 0 < b.oldSize

/-- A block that adds something. -/
def Block.Adds (b : Block) : Prop := b.kept = false ∧ 0 < b.newSize

/-- What a step brings to a block, and a longer block does not lose, some block of the
script has. -/
theorem exists_block {P : Block → Prop} {Q : Edit → Prop}
    (start : ∀ e, Q e → P (Block.ofEdit e))
    (more : ∀ b e, b.kept = decide (e.kind = .keep) → P b ∨ Q e → P (b.extend e))
    {script : List Edit} (some : ∃ e ∈ script, Q e) : ∃ b ∈ blocks script, P b := by
  have step (bs : List Block) (e : Edit) (some : (∃ b ∈ bs, P b) ∨ Q e) :
      ∃ b ∈ addEdit bs e, P b := by
    obtain ⟨b, before, rfl, same, eq⟩ | ⟨-, eq⟩ := addEdit_cases bs e
    · rw [eq]
      simp only [List.mem_cons, exists_eq_or_imp] at some ⊢
      obtain (here | there) | brought := some
      · exact .inl (more b e same (.inl here))
      · exact .inr there
      · exact .inl (more b e same (.inr brought))
    · rw [eq]
      simp only [List.mem_cons, exists_eq_or_imp]
      exact some.symm.imp_left (start e)
  have fold (bs : List Block) (script : List Edit)
      (some : (∃ b ∈ bs, P b) ∨ ∃ e ∈ script, Q e) : ∃ b ∈ script.foldl addEdit bs, P b := by
    induction script generalizing bs with
    | nil => simpa using some
    | cons e es ih =>
      refine ih _ ?_
      simp only [List.mem_cons, exists_eq_or_imp, ← or_assoc] at some
      exact some.imp_left (step bs e)
  obtain ⟨b, member, holds⟩ := fold [] script (.inr some)
  exact ⟨b, List.mem_reverse.2 member, holds⟩

theorem noneRemoved_of_blocks {script : List Edit} (filled : ∀ e ∈ script, 0 < e.length)
    (none : ∀ b ∈ blocks script, ¬ b.Removes) : NoneRemoved script := by
  intro e member removal
  have start (e : Edit) (removes : e.kind = .delete ∧ 0 < e.length) :
      (Block.ofEdit e).Removes := by
    simpa [Block.Removes, Block.ofEdit, removes.1] using removes.2
  have more (b : Block) (e : Edit) (same : b.kept = decide (e.kind = .keep))
      (some : b.Removes ∨ e.kind = .delete ∧ 0 < e.length) : (b.extend e).Removes := by
    rw [Block.Removes, kept_extend, oldSize_extend]
    obtain ⟨changed, filled⟩ | ⟨removal, filled⟩ := some
    · exact ⟨changed, Nat.add_pos_left filled _⟩
    · exact ⟨by simp [same, removal], Nat.add_pos_right _ (by simpa [Edit.oldSize, removal])⟩
  obtain ⟨b, inBlocks, removes⟩ :=
    exists_block start more ⟨e, member, removal, filled e member⟩
  exact none b inBlocks removes

theorem noneAdded_of_blocks {script : List Edit} (filled : ∀ e ∈ script, 0 < e.length)
    (none : ∀ b ∈ blocks script, ¬ b.Adds) : NoneAdded script := by
  intro e member addition
  have start (e : Edit) (adds : e.kind = .insert ∧ 0 < e.length) : (Block.ofEdit e).Adds := by
    simpa [Block.Adds, Block.ofEdit, adds.1] using adds.2
  have more (b : Block) (e : Edit) (same : b.kept = decide (e.kind = .keep))
      (some : b.Adds ∨ e.kind = .insert ∧ 0 < e.length) : (b.extend e).Adds := by
    rw [Block.Adds, kept_extend, newSize_extend]
    obtain ⟨changed, filled⟩ | ⟨addition, filled⟩ := some
    · exact ⟨changed, Nat.add_pos_left filled _⟩
    · exact ⟨by simp [same, addition], Nat.add_pos_right _ (by simpa [Edit.newSize, addition])⟩
  obtain ⟨b, inBlocks, adds⟩ :=
    exists_block start more ⟨e, member, addition, filled e member⟩
  exact none b inBlocks adds

end RoutineWatch.Diff
