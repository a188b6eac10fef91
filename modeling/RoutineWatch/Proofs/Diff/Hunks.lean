import RoutineWatch.Proofs.Diff.Blocks

/-!
# The hunks of a script

Hunks stand in both texts one after the other, and between them the texts agree. What is cut
off kept blocks is the same in both texts, and so is a last group with nothing changed in it.

- `Diff.hunks_arranged`: where the hunks of a script stand.
- `Diff.mem_hunks`: no changed block is lost.
-/
namespace RoutineWatch.Diff

section
variable {old new : Lines} {noRemoved noAdded : Prop} {i j : Nat}

/-! Parts of kept blocks -/

@[simp] theorem kept_takeFirst (b : Block) (n : Nat) : (b.takeFirst n).kept = b.kept := rfl

@[simp] theorem kept_dropFirst (b : Block) (n : Nat) : (b.dropFirst n).kept = b.kept := rfl

@[simp] theorem oldSize_takeFirst (b : Block) (n : Nat) : (b.takeFirst n).oldSize = n := rfl

@[simp] theorem newSize_takeFirst (b : Block) (n : Nat) : (b.takeFirst n).newSize = n := rfl

@[simp] theorem oldSize_dropFirst (b : Block) (n : Nat) :
    (b.dropFirst n).oldSize = b.oldSize - n := rfl

@[simp] theorem newSize_dropFirst (b : Block) (n : Nat) :
    (b.dropFirst n).newSize = b.newSize - n := rfl

theorem stands_takeFirst {b : Block} {n : Nat} (stands : b.Stands old new noRemoved noAdded i j)
    (kept : b.kept = true) (some : 0 < n) (part : n ≤ b.oldSize) :
    (b.takeFirst n).Stands old new noRemoved noAdded i j := by
  obtain ⟨filled, oldPlace, newPlace, sizes, agree⟩ := stands
  have size := sizes kept
  have agree := agree kept
  rw [show b.oldSize = n + (b.oldSize - n) by omega, agree_add] at agree
  exact ⟨Nat.add_pos_left some _, fun _ => oldPlace (.inl (by omega)),
    fun _ => newPlace (.inl (by omega)), fun _ => rfl, fun _ => agree.1⟩

theorem stands_dropFirst {b : Block} {n : Nat} (stands : b.Stands old new noRemoved noAdded i j)
    (kept : b.kept = true) (part : n < b.oldSize) :
    (b.dropFirst n).Stands old new noRemoved noAdded (i + n) (j + n) := by
  obtain ⟨filled, oldPlace, newPlace, sizes, agree⟩ := stands
  have size := sizes kept
  have agree := agree kept
  rw [show b.oldSize = n + (b.oldSize - n) by omega, agree_add] at agree
  exact ⟨Nat.add_pos_left (Nat.sub_pos_of_lt part) _,
    fun _ => congrArg (· + n) (oldPlace (.inl (by omega))),
    fun _ => congrArg (· + n) (newPlace (.inl (by omega))),
    fun _ => congrArg (· - n) size, fun _ => agree.2⟩

/-! The groups -/

/-- Groups of blocks stand in the texts one after the other from the given lines on. Before
each of them and after the last one there are lines that agree. -/
inductive Arranged (old new : Lines) (noRemoved noAdded : Prop) :
    Nat → Nat → List (List Block) → Prop where
  | done {i j gap : Nat} : Agree old new i j gap → i + gap = old.size → j + gap = new.size →
    Arranged old new noRemoved noAdded i j []
  | hunk {i j gap : Nat} {h : List Block} {hs : List (List Block)} : Agree old new i j gap →
    h ≠ [] → Alternate h → (pieces old new noRemoved noAdded).Lies (i + gap) (j + gap) h →
    Arranged old new noRemoved noAdded
      (i + gap + (pieces old new noRemoved noAdded).oldSpan h)
      (j + gap + (pieces old new noRemoved noAdded).newSpan h) hs →
    Arranged old new noRemoved noAdded i j (h :: hs)

/-- Lines that agree before the first group. -/
theorem Arranged.later {gap : Nat} {hs : List (List Block)} (agree : Agree old new i j gap)
    (arranged : Arranged old new noRemoved noAdded (i + gap) (j + gap) hs) :
    Arranged old new noRemoved noAdded i j hs := by
  cases arranged with
  | @done _ _ gap' agree' atOld atNew =>
    exact .done (agree_add.2 ⟨agree, agree'⟩) (by omega) (by omega)
  | @hunk _ _ gap' _ _ agree' filled alternate lies arranged =>
    rw [Nat.add_assoc i, Nat.add_assoc j] at lies arranged
    exact .hunk (agree_add.2 ⟨agree, agree'⟩) filled alternate lies arranged

theorem Arranged.ne_nil {hs : List (List Block)}
    (arranged : Arranged old new noRemoved noAdded i j hs) : ∀ h ∈ hs, h ≠ [] := by
  induction arranged with
  | done _ _ _ => simp
  | hunk _ filled _ _ _ ih => exact List.forall_mem_cons.2 ⟨filled, ih⟩

/-- Blocks lie from some lines on, and after them the texts agree to their ends. -/
structure Reaches (old new : Lines) (noRemoved noAdded : Prop) (i j : Nat) (bs : List Block) :
    Prop where
  lies : (pieces old new noRemoved noAdded).Lies i j bs
  rest : ∃ gap,
    Agree old new (i + (pieces old new noRemoved noAdded).oldSpan bs)
      (j + (pieces old new noRemoved noAdded).newSpan bs) gap ∧
    i + (pieces old new noRemoved noAdded).oldSpan bs + gap = old.size ∧
    j + (pieces old new noRemoved noAdded).newSpan bs + gap = new.size

/-- A last group with nothing changed in it only makes the lines longer that agree. -/
theorem arranged_nil {bs : List Block} (reaches : Reaches old new noRemoved noAdded i j bs)
    (noHunk : isHunk bs = false) : Arranged old new noRemoved noAdded i j [] := by
  obtain ⟨lies, gap, agree, atOld, atNew⟩ := reaches
  match bs with
  | [] => exact .done agree atOld atNew
  | [b] =>
    have kept : b.kept = true := by simpa [isHunk] using noHunk
    have size := lies.1.sizes kept
    simp only [Layout.oldSpan_cons, Layout.newSpan_cons, oldSize_pieces, newSize_pieces,
      Layout.oldSpan_nil, Layout.newSpan_nil, Nat.add_zero, ← size] at agree atOld atNew
    exact .later (lies.1.agree kept) (.done agree atOld atNew)
  | _ :: _ :: _ => simp [isHunk] at noHunk

/-- A kept block that is long is cut: its first lines end one group, its last ones start the
next, and those between agree. -/
theorem Reaches.cut {before bs : List Block} {b : Block}
    (reaches : Reaches old new noRemoved noAdded i j (before ++ b :: bs)) (kept : b.kept = true)
    (long : 2 * context < b.oldSize) :
    let group := before ++ [b.takeFirst context]
    let k := i + (pieces old new noRemoved noAdded).oldSpan group
    let l := j + (pieces old new noRemoved noAdded).newSpan group
    let gap := b.oldSize - 2 * context
    (pieces old new noRemoved noAdded).Lies i j group ∧ Agree old new k l gap ∧
      Reaches old new noRemoved noAdded (k + gap) (l + gap)
        (b.dropFirst (b.oldSize - context) :: bs) := by
  obtain ⟨lies, rest, agree, atOld, atNew⟩ := reaches
  simp only [Layout.lies_append, Layout.lies_cons, oldSize_pieces, newSize_pieces,
    Layout.oldSpan_append, Layout.newSpan_append, Layout.oldSpan_cons,
    Layout.newSpan_cons] at lies agree atOld atNew
  obtain ⟨lies, here, after⟩ := lies
  have size := here.sizes kept
  have same := here.agree kept
  have short : 0 < context := by decide
  have first := stands_takeFirst here kept short (by omega)
  have last := stands_dropFirst here kept (show b.oldSize - context < b.oldSize by omega)
  rw [show b.oldSize = context + (b.oldSize - 2 * context + context) by omega,
    agree_add, agree_add] at same
  simp only [Layout.lies_append, Layout.oldSpan_append, Layout.newSpan_append, Layout.oldSpan_cons,
    Layout.newSpan_cons, Layout.oldSpan_nil, Layout.newSpan_nil, oldSize_pieces, newSize_pieces,
    Nat.add_zero, oldSize_takeFirst, newSize_takeFirst]
  have oldLeft : (b.dropFirst (b.oldSize - context)).oldSize = context := by
    rw [oldSize_dropFirst]
    omega
  have newLeft : (b.dropFirst (b.oldSize - context)).newSize = context := by
    rw [newSize_dropFirst]
    omega
  rw [← size] at after agree atNew
  generalize (pieces old new noRemoved noAdded).oldSpan before = s at *
  generalize (pieces old new noRemoved noAdded).newSpan before = t at *
  have k : i + (s + context) + (b.oldSize - 2 * context) = i + s + (b.oldSize - context) := by omega
  have l : j + (t + context) + (b.oldSize - 2 * context) = j + t + (b.oldSize - context) := by omega
  refine ⟨⟨lies, first, trivial⟩, ?_, ⟨?_, ?_⟩, rest, ?_, ?_, ?_⟩
  · simpa only [Nat.add_assoc] using same.2.1
  · rw [k, l]
    exact last
  · rw [k, l, oldSize_pieces, newSize_pieces, oldLeft, newLeft]
    convert after using 1
    · omega
    · omega
  · rw [Layout.oldSpan_cons, Layout.newSpan_cons, oldSize_pieces, newSize_pieces, oldLeft, newLeft]
    convert agree using 1
    · omega
    · omega
  · rw [Layout.oldSpan_cons, oldSize_pieces, oldLeft]
    omega
  · rw [Layout.newSpan_cons, newSize_pieces, newLeft]
    omega

theorem group_arranged (pending bs : List Block)
    (reaches : Reaches old new noRemoved noAdded i j (pending.reverse ++ bs))
    (alternate : Alternate (pending.reverse ++ bs)) :
    Arranged old new noRemoved noAdded i j (group pending bs) := by
  induction bs generalizing pending i j with
  | nil =>
    rw [List.append_nil] at reaches alternate
    unfold group
    split
    · next hunk =>
      have filled : pending.reverse ≠ [] := by
        intro none
        simp [none, isHunk] at hunk
      obtain ⟨lies, gap, agree, atOld, atNew⟩ := reaches
      exact .hunk agree_zero filled alternate lies (.done agree atOld atNew)
    · next noHunk => exact arranged_nil reaches (by simpa using noHunk)
  | cons b bs ih =>
    unfold group
    split
    · next cut =>
      obtain ⟨kept, long⟩ : b.kept = true ∧ 2 * context < b.oldSize := by simpa using cut
      obtain ⟨lies, agree, reaches⟩ := reaches.cut kept long
      have first : Alternate (pending.reverse ++ [b.takeFirst context]) := by
        have upToHere : Alternate (pending.reverse ++ [b]) := by
          rw [List.append_cons] at alternate
          exact alternate.left_of_append
        exact (alternate_congr (by simp)).1 upToHere
      have second : Alternate (b.dropFirst (b.oldSize - context) :: bs) :=
        (alternate_congr (by simp)).1 alternate.right_of_append
      rw [List.reverse_cons]
      exact .hunk agree_zero (by simp) first lies
        (.later agree (ih [b.dropFirst (b.oldSize - context)] reaches second))
    · refine ih (b :: pending) ?_ ?_
      · simpa using reaches
      · simpa using alternate

/-! The ends -/

theorem trimFirst_cases (bs : List Block) :
    (∃ b later, bs = b :: later ∧ b.kept = true ∧
        trimFirst bs = b.dropFirst (b.oldSize - context) :: later) ∨ trimFirst bs = bs := by
  cases bs with
  | nil => exact .inr rfl
  | cons b later =>
    by_cases kept : b.kept = true
    · exact .inl ⟨b, later, rfl, kept, if_pos kept⟩
    · exact .inr (if_neg kept)

theorem trimLast_cases (bs : List Block) :
    (∃ before b, bs = before ++ [b] ∧ b.kept = true ∧
        trimLast bs = before ++ [b.takeFirst (min b.oldSize context)]) ∨ trimLast bs = bs := by
  obtain rfl | ⟨before, b, rfl⟩ := List.eq_nil_or_concat bs
  · exact .inr rfl
  · by_cases kept : b.kept = true
    · exact .inl ⟨before, b, by simp, kept, by simp [trimLast, kept]⟩
    · exact .inr (by simp [trimLast, kept])

theorem trimFirst_reaches {bs : List Block} (reaches : Reaches old new noRemoved noAdded i j bs) :
    ∃ gap, Agree old new i j gap ∧
      Reaches old new noRemoved noAdded (i + gap) (j + gap) (trimFirst bs) := by
  obtain ⟨b, later, rfl, kept, eq⟩ | eq := trimFirst_cases bs
  · obtain ⟨⟨here, after⟩, rest, agree, atOld, atNew⟩ := reaches
    have filled := here.filled
    have size := here.sizes kept
    have same := here.agree kept
    have short : 0 < context := by decide
    have part : b.oldSize - context < b.oldSize := by omega
    have last := stands_dropFirst here kept part
    have oldLeft :
        b.oldSize - context + (b.dropFirst (b.oldSize - context)).oldSize = b.oldSize := by
      rw [oldSize_dropFirst]
      omega
    have newLeft :
        b.oldSize - context + (b.dropFirst (b.oldSize - context)).newSize = b.newSize := by
      rw [newSize_dropFirst]
      omega
    simp only [Layout.oldSpan_cons, Layout.newSpan_cons, oldSize_pieces, newSize_pieces,
      ← Nat.add_assoc] at after agree atOld atNew
    rw [show b.oldSize = b.oldSize - context + (b.oldSize - (b.oldSize - context)) by omega,
      agree_add] at same
    rw [eq]
    refine ⟨b.oldSize - context, same.1, ⟨last, ?_⟩, rest, ?_, ?_, ?_⟩
    · rw [oldSize_pieces, newSize_pieces, Nat.add_assoc, oldLeft, Nat.add_assoc, newLeft]
      exact after
    · rw [Layout.oldSpan_cons, Layout.newSpan_cons, oldSize_pieces, newSize_pieces]
      convert agree using 1
      · omega
      · omega
    · rw [Layout.oldSpan_cons, oldSize_pieces]
      omega
    · rw [Layout.newSpan_cons, newSize_pieces]
      omega
  · rw [eq]
    exact ⟨0, agree_zero, reaches⟩

theorem trimLast_reaches {bs : List Block} (reaches : Reaches old new noRemoved noAdded i j bs) :
    Reaches old new noRemoved noAdded i j (trimLast bs) := by
  obtain ⟨before, b, rfl, kept, eq⟩ | eq := trimLast_cases bs
  · obtain ⟨lies, rest, agree, atOld, atNew⟩ := reaches
    obtain ⟨lies, here, -⟩ := (Layout.lies_append _).1 lies
    have filled := here.filled
    have size := here.sizes kept
    have same := here.agree kept
    have short : 0 < context := by decide
    obtain ⟨n, n_eq⟩ : ∃ n, n = min b.oldSize context := ⟨_, rfl⟩
    have first := stands_takeFirst here kept (n := n) (by omega) (by omega)
    rw [show b.oldSize = n + (b.oldSize - n) by omega, agree_add] at same
    rw [eq, ← n_eq]
    simp only [Layout.oldSpan_append, Layout.newSpan_append, Layout.oldSpan_cons,
      Layout.newSpan_cons, Layout.oldSpan_nil, Layout.newSpan_nil, oldSize_pieces, newSize_pieces,
      Nat.add_zero, ← size] at agree atOld atNew
    refine ⟨(Layout.lies_append _).2 ⟨lies, first, trivial⟩, b.oldSize - n + rest, ?_, ?_, ?_⟩
    · simp only [Layout.oldSpan_append, Layout.newSpan_append, Layout.oldSpan_cons,
        Layout.newSpan_cons, Layout.oldSpan_nil, Layout.newSpan_nil, oldSize_pieces,
        newSize_pieces, Nat.add_zero, oldSize_takeFirst, newSize_takeFirst, ← Nat.add_assoc,
        agree_add]
      refine ⟨same.2, ?_⟩
      convert agree using 1
      · omega
      · omega
    · simp only [Layout.oldSpan_append, Layout.oldSpan_cons, Layout.oldSpan_nil, oldSize_pieces,
        oldSize_takeFirst]
      omega
    · simp only [Layout.newSpan_append, Layout.newSpan_cons, Layout.newSpan_nil, newSize_pieces,
        newSize_takeFirst]
      omega
  · rwa [eq]

theorem map_kept_trimFirst (bs : List Block) :
    (trimFirst bs).map (·.kept) = bs.map (·.kept) := by
  obtain ⟨b, later, rfl, kept, eq⟩ | eq := trimFirst_cases bs
  · rw [eq]
    rfl
  · rw [eq]

theorem map_kept_trimLast (bs : List Block) : (trimLast bs).map (·.kept) = bs.map (·.kept) := by
  obtain ⟨before, b, rfl, kept, eq⟩ | eq := trimLast_cases bs
  · rw [eq, List.map_append, List.map_append]
    rfl
  · rw [eq]

/-- The hunks of a script that leads from one text to the other. -/
theorem hunks_arranged {script : List Edit}
    (covers : (firmSteps old new noRemoved noAdded).Covers 0 0 old.size new.size script) :
    Arranged old new noRemoved noAdded 0 0 (hunks script) := by
  obtain ⟨lies, oldSpan_eq, newSpan_eq⟩ := blocks_covers covers
  have reaches : Reaches old new noRemoved noAdded 0 0 (blocks script) := by
    refine ⟨lies, 0, agree_zero, ?_, ?_⟩
    · rw [oldSpan_eq, Nat.zero_add, Nat.add_zero]
    · rw [newSpan_eq, Nat.zero_add, Nat.add_zero]
  obtain ⟨gap, agree, trimmed⟩ := trimFirst_reaches reaches
  have flags : (trimLast (trimFirst (blocks script))).map (·.kept) = (blocks script).map (·.kept) :=
    (map_kept_trimLast _).trans (map_kept_trimFirst _)
  have alternate := (alternate_congr flags).2 (alternate_blocks script)
  exact .later agree (group_arranged [] _ (trimLast_reaches trimmed) alternate)

/-! No change is lost -/

theorem mem_trimFirst {b : Block} {bs : List Block} (changed : b.kept = false) (member : b ∈ bs) :
    b ∈ trimFirst bs := by
  obtain ⟨b', later, rfl, kept, eq⟩ | eq := trimFirst_cases bs
  · rw [eq]
    obtain rfl | there := List.mem_cons.1 member
    · exact absurd (changed.symm.trans kept) Bool.false_ne_true
    · exact List.mem_cons_of_mem _ there
  · rwa [eq]

theorem mem_trimLast {b : Block} {bs : List Block} (changed : b.kept = false) (member : b ∈ bs) :
    b ∈ trimLast bs := by
  obtain ⟨before, b', rfl, kept, eq⟩ | eq := trimLast_cases bs
  · rw [eq]
    obtain there | last := List.mem_append.1 member
    · exact List.mem_append_left _ there
    · cases List.mem_singleton.1 last
      exact absurd (changed.symm.trans kept) Bool.false_ne_true
  · rwa [eq]

theorem isHunk_of_mem {b : Block} {bs : List Block} (changed : b.kept = false) (member : b ∈ bs) :
    isHunk bs = true := by
  match bs with
  | [] => cases member
  | [b'] =>
    cases List.mem_singleton.1 member
    simp [isHunk, changed]
  | _ :: _ :: _ => rfl

theorem mem_group {b : Block} {pending bs : List Block} (changed : b.kept = false)
    (member : b ∈ pending ∨ b ∈ bs) : ∃ h ∈ group pending bs, b ∈ h := by
  induction bs generalizing pending with
  | nil =>
    have here : b ∈ pending.reverse := by simpa using member
    rw [group, if_pos (isHunk_of_mem changed here)]
    exact ⟨_, List.mem_singleton_self _, here⟩
  | cons b' bs ih =>
    rw [List.mem_cons] at member
    unfold group
    split
    · next cut =>
      have kept : b'.kept = true := (by simpa using cut : b'.kept = true ∧ _).1
      have other : b ≠ b' := by
        rintro rfl
        exact absurd (changed.symm.trans kept) Bool.false_ne_true
      obtain before | here | after := member
      · exact ⟨_, List.mem_cons_self, by simp [before]⟩
      · exact absurd here other
      · obtain ⟨h, inGroups, inHunk⟩ := ih (.inr after)
        exact ⟨h, List.mem_cons_of_mem _ inGroups, inHunk⟩
    · exact ih (by simpa [or_assoc, or_left_comm] using member)

/-- Every changed block is in a hunk. -/
theorem mem_hunks {b : Block} {script : List Edit} (changed : b.kept = false)
    (member : b ∈ blocks script) : ∃ h ∈ hunks script, b ∈ h :=
  mem_group changed (.inr (mem_trimLast changed (mem_trimFirst changed member)))

end

end RoutineWatch.Diff
