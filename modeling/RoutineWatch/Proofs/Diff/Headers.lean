import RoutineWatch.Proofs.Diff.Bodies

/-!
# When a hunk is written under the right header

A block tells its place in every text that it has lines in, so a range is right if the first
and the last block have lines on its side; that can be seen in the changed lines at the ends
of the hunk. It is right as well if no line of its side has changed at all.

- `Diff.Placed.old_eq`, `Diff.Placed.new_eq`: when the range of a text is right.
- `Diff.exists_patch`: the hunks of two texts are those of a patch that leads from the one to
  the other.
-/
namespace RoutineWatch.Diff

section
variable {old new : Lines} {noRemoved noAdded : Prop} {i j : Nat}

/-! Lines of a block -/

theorem role_of_kept {b : Block} (kept : b.kept = true) {line : HunkLine}
    (member : line ∈ b.body old new) : line.role = .context := by
  rw [Block.body, if_pos kept, marked, List.mem_map] at member
  obtain ⟨text, _, rfl⟩ := member
  rfl

theorem mem_body_changed {b : Block} (changed : b.kept ≠ true) {line : HunkLine}
    (member : line ∈ b.body old new) :
    line.role = .removed ∧ 0 < b.oldSize ∨ line.role = .added ∧ 0 < b.newSize := by
  have filled (lines : Lines) {start size : Nat} {text : DiffLine}
      (member : text ∈ slice lines start size) : 0 < size := by
    by_contra none
    simp [slice_eq, Nat.eq_zero_of_not_pos none] at member
  rw [Block.body, if_neg changed, marked, marked, List.mem_append, List.mem_map,
    List.mem_map] at member
  obtain ⟨text, inOld, rfl⟩ | ⟨text, inNew, rfl⟩ := member
  · exact .inl ⟨rfl, filled old inOld⟩
  · exact .inr ⟨rfl, filled new inNew⟩

theorem body_ne_nil {b : Block} (stands : b.Stands old new noRemoved noAdded i j)
    (inOld : i + b.oldSize ≤ old.size) (inNew : j + b.newSize ≤ new.size) :
    b.body old new ≠ [] := by
  intro none
  have oldNone := oldTexts_body stands
  have newNone := newTexts_body stands inOld inNew
  rw [none] at oldNone newNone
  have oldSize := length_slice inOld
  have newSize := length_slice inNew
  rw [← oldNone] at oldSize
  rw [← newNone] at newSize
  have filled := stands.filled
  simp [oldTexts, newTexts] at oldSize newSize
  omega

/-- Every block of a row stands somewhere in the texts. -/
theorem stands_of_mem {h : List Block} (lies : (pieces old new noRemoved noAdded).Lies i j h)
    (inOld : i + total Block.oldSize h ≤ old.size)
    (inNew : j + total Block.newSize h ≤ new.size) {b : Block} (member : b ∈ h) :
    ∃ k l, b.Stands old new noRemoved noAdded k l ∧ k + b.oldSize ≤ old.size ∧
      l + b.newSize ≤ new.size := by
  induction h generalizing i j with
  | nil => cases member
  | cons b' h ih =>
    obtain ⟨here, lies⟩ := lies
    simp only [total_cons] at inOld inNew
    obtain rfl | later := List.mem_cons.1 member
    · exact ⟨i, j, here, by omega, by omega⟩
    · exact ih lies (by simp; omega) (by simp; omega) later

theorem bodies_ne_nil {h : List Block} (lies : (pieces old new noRemoved noAdded).Lies i j h)
    (inOld : i + total Block.oldSize h ≤ old.size)
    (inNew : j + total Block.newSize h ≤ new.size) : ∀ b ∈ h, b.body old new ≠ [] := by
  intro b member
  obtain ⟨k, l, stands, inOld, inNew⟩ := stands_of_mem lies inOld inNew member
  exact body_ne_nil stands inOld inNew

/-! The ends of a hunk -/

/-- The changed lines at the front are those of the first block, in whatever order the lines
of a block stand. -/
theorem changed_of_frontHas {role : Role} {written : Block → List HunkLine}
    (same : ∀ b line, line ∈ written b ↔ line ∈ b.body old new) {b : Block} {rest : List Block}
    (alternate : Alternate (b :: rest)) (filled : ∀ b' ∈ b :: rest, b'.body old new ≠ [])
    (front : FrontHas role ((b :: rest).flatMap written)) :
    b.kept = true ∨ ∃ line ∈ b.body old new, line.role = role := by
  refine or_iff_not_imp_left.2 fun changed => ?_
  have written_ne_nil (b' : Block) (member : b' ∈ b :: rest) : written b' ≠ [] := by
    obtain ⟨line, inBody⟩ := List.exists_mem_of_ne_nil _ (filled b' member)
    exact List.ne_nil_of_mem ((same b' line).2 inBody)
  have allChanged : ∀ line ∈ written b, line.role ≠ .context := by
    intro line member context
    obtain ⟨removed, _⟩ | ⟨added, _⟩ := mem_body_changed changed ((same b line).1 member)
    · cases removed.symm.trans context
    · cases added.symm.trans context
  have stop : ∀ line ∈ (rest.flatMap written).head?, line.role = .context := by
    intro line first
    cases rest with
    | nil => cases first
    | cons b' rest =>
      have kept : b'.kept = true := by
        have other := (List.isChain_cons_cons.1 alternate).1
        simpa [changed] using other.symm
      have some := written_ne_nil b' (by simp)
      rw [List.flatMap_cons, List.head?_append_of_ne_nil _ some] at first
      exact role_of_kept kept ((same b' line).1 (List.mem_of_mem_head? first))
  rw [List.flatMap_cons, FrontHas, changedFront_append allChanged stop] at front
  obtain none | ⟨line, member, role_eq⟩ := front
  · exact absurd none (written_ne_nil b List.mem_cons_self)
  · exact ⟨line, (same b line).1 member, role_eq⟩

/-- A block with lines of a text takes up some of that text. -/
theorem sizes_pos {b : Block} (stands : b.Stands old new noRemoved noAdded i j) {role : Role}
    (some : b.kept = true ∨ ∃ line ∈ b.body old new, line.role = role) :
    (role = .removed → 0 < b.oldSize) ∧ (role = .added → 0 < b.newSize) := by
  by_cases kept : b.kept = true
  · have filled := stands.filled
    have size := stands.sizes kept
    exact ⟨fun _ => by omega, fun _ => by omega⟩
  · obtain ⟨line, member, rfl⟩ := some.resolve_left kept
    obtain ⟨removed, filled⟩ | ⟨added, filled⟩ := mem_body_changed kept member
    · exact ⟨fun _ => filled, fun added => by cases removed.symm.trans added⟩
    · exact ⟨fun removed => (by cases removed.symm.trans added), fun _ => filled⟩

/-- The first and the last block of a hunk. -/
theorem exists_ends {h : List Block} (some : h ≠ []) :
    ∃ first later before last, h = first :: later ∧ h = before ++ [last] := by
  obtain ⟨first, later, eq⟩ := List.exists_cons_of_ne_nil some
  obtain none | ⟨before, last, eq'⟩ := List.eq_nil_or_concat h
  · exact absurd none some
  · exact ⟨first, later, before, last, eq, by simpa using eq'⟩

/-- Where the first and the last block stand. -/
theorem ends_of_anchored {h : List Block} {role : Role} (alternate : Alternate h)
    (filled : ∀ b ∈ h, b.body old new ≠ [])
    (anchored : (rightHunk old new i j h).Anchored role) {first last : Block}
    {later before : List Block} (front : h = first :: later) (back : h = before ++ [last]) :
    (first.kept = true ∨ ∃ line ∈ first.body old new, line.role = role) ∧
      (last.kept = true ∨ ∃ line ∈ last.body old new, line.role = role) := by
  obtain ⟨atFront, atBack⟩ := anchored
  constructor
  · subst front
    exact changed_of_frontHas (fun _ _ => Iff.rfl) alternate filled atFront
  · have reversed : h.reverse = last :: before.reverse := by simp [back]
    have alternate := alternate_reverse.2 alternate
    have filled' : ∀ b ∈ h.reverse, b.body old new ≠ [] := by simpa using filled
    rw [rightHunk, List.reverse_flatMap] at atBack
    rw [reversed] at atBack alternate filled'
    exact changed_of_frontHas (fun _ _ => List.mem_reverse) alternate filled' atBack

/-! The ranges -/

/-- The ranges that a hunk is written with, told by its first and its last block. -/
theorem statedHunk_ranges (old new : Lines) {h later before : List Block} {first last : Block}
    (front : h = first :: later) (back : h = before ++ [last]) :
    (statedHunk old new h).old =
        .after first.oldStart (last.oldStart + last.oldSize - first.oldStart) ∧
      (statedHunk old new h).new =
        .after first.newStart (last.newStart + last.newSize - first.newStart) := by
  have head : h.head? = some first := by rw [front, List.head?_cons]
  have getLast : h.getLast? = some last := by rw [back, List.getLast?_concat]
  simp [statedHunk, head, getLast]

/-- The range between two ends that stand where they should. -/
theorem after_of_ends {start first last before size whole : Nat} (atFirst : first = start)
    (atLast : last = start + before) (together : whole = before + size) :
    Range.after first (last + size - first) = .after start whole := by
  rw [atFirst, atLast, together, Nat.add_assoc, Nat.add_sub_cancel_left]

/-- Where the first and the last block of a hunk stand, and what its anchors tell of them. -/
theorem Placed.ends {h : List Block} {right : PatchHunk}
    (placed : Placed old new noRemoved noAdded h right) :
    ∃ i j first later before last, right = rightHunk old new i j h ∧ h = first :: later ∧
      h = before ++ [last] ∧ first.Stands old new noRemoved noAdded i j ∧
      last.Stands old new noRemoved noAdded (i + total Block.oldSize before)
        (j + total Block.newSize before) ∧
      ∀ role, right.Anchored role →
        (first.kept = true ∨ ∃ line ∈ first.body old new, line.role = role) ∧
          (last.kept = true ∨ ∃ line ∈ last.body old new, line.role = role) := by
  cases placed with
  | @stands i j _ some alternate lies inOld inNew =>
    obtain ⟨first, later, before, last, front, back⟩ := exists_ends some
    have filled := bodies_ne_nil lies inOld inNew
    refine ⟨i, j, first, later, before, last, rfl, front, back, ?_, ?_, fun role anchored =>
      ends_of_anchored alternate filled anchored front back⟩
    · rw [front] at lies
      exact lies.1
    · rw [back] at lies
      exact ((Layout.lies_append _).1 lies).2.1

theorem Placed.lines_eq {h : List Block} {right : PatchHunk}
    (placed : Placed old new noRemoved noAdded h right) :
    (statedHunk old new h).lines = right.lines := by
  cases placed
  rfl

/-- The range of the old text is right if the ends of the hunk have lines there, and if
nothing is removed. -/
theorem Placed.old_eq {h : List Block} {right : PatchHunk}
    (placed : Placed old new noRemoved noAdded h right)
    (firm : right.Anchored .removed ∨ noRemoved) : (statedHunk old new h).old = right.old := by
  obtain ⟨i, j, first, later, before, last, rfl, front, back, atFirst, atLast, anchors⟩ :=
    placed.ends
  have firstFirm : 0 < first.oldSize ∨ noRemoved :=
    firm.imp_left fun anchored => (sizes_pos atFirst (anchors _ anchored).1).1 rfl
  have lastFirm : 0 < last.oldSize ∨ noRemoved :=
    firm.imp_left fun anchored => (sizes_pos atLast (anchors _ anchored).2).1 rfl
  have size : total Block.oldSize h = total Block.oldSize before + last.oldSize := by
    rw [back]
    simp
  rw [(statedHunk_ranges old new front back).1, rightHunk]
  exact after_of_ends (atFirst.oldPlace firstFirm) (atLast.oldPlace lastFirm) size

/-- The range of the new text is right if the ends of the hunk have lines there, and if
nothing is added. -/
theorem Placed.new_eq {h : List Block} {right : PatchHunk}
    (placed : Placed old new noRemoved noAdded h right)
    (firm : right.Anchored .added ∨ noAdded) : (statedHunk old new h).new = right.new := by
  obtain ⟨i, j, first, later, before, last, rfl, front, back, atFirst, atLast, anchors⟩ :=
    placed.ends
  have firstFirm : 0 < first.newSize ∨ noAdded :=
    firm.imp_left fun anchored => (sizes_pos atFirst (anchors _ anchored).1).2 rfl
  have lastFirm : 0 < last.newSize ∨ noAdded :=
    firm.imp_left fun anchored => (sizes_pos atLast (anchors _ anchored).2).2 rfl
  have size : total Block.newSize h = total Block.newSize before + last.newSize := by
    rw [back]
    simp
  rw [(statedHunk_ranges old new front back).2, rightHunk]
  exact after_of_ends (atFirst.newPlace firstFirm) (atLast.newPlace lastFirm) size

/-! Nothing removed, nothing added -/

theorem exists_mem_slice {lines : Lines} {start size : Nat} (inside : start + size ≤ lines.size)
    (filled : 0 < size) : ∃ text, text ∈ slice lines start size := by
  rw [← length_slice inside, List.length_pos_iff] at filled
  exact List.exists_mem_of_ne_nil _ filled

/-- What a block changes is among the lines of its hunk. -/
theorem exists_changed {h : List Block} {right : PatchHunk}
    (placed : Placed old new noRemoved noAdded h right) {b : Block} (member : b ∈ h)
    {role : Role} (changes : role = .removed ∧ b.Removes ∨ role = .added ∧ b.Adds) :
    ∃ line ∈ right.lines, line.role = role := by
  cases placed with
  | @stands i j _ some alternate lies inOld inNew =>
    obtain ⟨k, l, stands, inOld, inNew⟩ := stands_of_mem lies inOld inNew member
    obtain ⟨rfl, changed, filled⟩ | ⟨rfl, changed, filled⟩ := changes
    · obtain ⟨text, inSlice⟩ := exists_mem_slice inOld filled
      rw [← stands.oldPlace (.inl filled)] at inSlice
      refine ⟨⟨.removed, text⟩, List.mem_flatMap.2 ⟨b, member, ?_⟩, rfl⟩
      simp [Block.body, changed, marked, inSlice]
    · obtain ⟨text, inSlice⟩ := exists_mem_slice inNew filled
      rw [← stands.newPlace (.inl filled)] at inSlice
      refine ⟨⟨.added, text⟩, List.mem_flatMap.2 ⟨b, member, ?_⟩, rfl⟩
      simp [Block.body, changed, marked, inSlice]

end

/-! The patch of two texts -/

/-- A hunk as it is written, and the same lines under the right header. The two headers
agree on a text if the ends of the hunk have lines of that text, and if no line of that text
changes in the whole patch. -/
structure Heads (p : List PatchHunk) (stated right : PatchHunk) : Prop where
  lines : stated.lines = right.lines
  old : right.Anchored .removed ∨ ¬ HasRole .removed p → stated.old = right.old
  new : right.Anchored .added ∨ ¬ HasRole .added p → stated.new = right.new

theorem exists_of_mem_left {α β : Type} {R : α → β → Prop} {xs : List α} {ys : List β}
    (all : List.Forall₂ R xs ys) {x : α} (member : x ∈ xs) : ∃ y ∈ ys, R x y := by
  induction all with
  | nil => cases member
  | cons related _ ih =>
    obtain rfl | later := List.mem_cons.1 member
    · exact ⟨_, List.mem_cons_self, related⟩
    · obtain ⟨y, there, related⟩ := ih later
      exact ⟨y, List.mem_cons_of_mem _ there, related⟩

/-- The hunks of two texts are those of a patch that leads from the one to the other. -/
theorem exists_patch (old new : Lines) :
    ∃ right, List.Forall₂ (Heads right) ((hunks (script old new)).map (statedHunk old new)) right ∧
      Leads 0 0 right old.toList new.toList := by
  have covers := script_covers old new
  obtain ⟨right, placed, leads⟩ := (hunks_arranged covers).leads
  have filled : ∀ e ∈ script old new, 0 < e.length := fun e member => by
    obtain ⟨_, _, stands⟩ := Layout.exists_stands _ covers.lies member
    exact stands.1.filled
  have shown {role : Role} {b : Block} (member : b ∈ blocks (script old new))
      (changed : b.kept = false)
      (changes : role = .removed ∧ b.Removes ∨ role = .added ∧ b.Adds) : HasRole role right := by
    obtain ⟨h, inHunks, inHunk⟩ := mem_hunks changed member
    obtain ⟨r, inRight, placed⟩ := exists_of_mem_left placed inHunks
    exact ⟨r, inRight, exists_changed placed inHunk changes⟩
  have noneRemoved (none : ¬ HasRole .removed right) : NoneRemoved (script old new) :=
    noneRemoved_of_blocks filled fun b member removes =>
      none (shown member removes.1 (.inl ⟨rfl, removes⟩))
  have noneAdded (none : ¬ HasRole .added right) : NoneAdded (script old new) :=
    noneAdded_of_blocks filled fun b member adds =>
      none (shown member adds.1 (.inr ⟨rfl, adds⟩))
  refine ⟨right, List.forall₂_map_left_iff.2 (placed.imp fun h r placed => ?_), leads⟩
  exact ⟨placed.lines_eq, fun firm => placed.old_eq (firm.imp_right noneRemoved),
    fun firm => placed.new_eq (firm.imp_right noneAdded)⟩

end RoutineWatch.Diff
