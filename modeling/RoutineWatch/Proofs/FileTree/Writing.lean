import RoutineWatch.Proofs.FileTree.Paths

/-!
# Writing by path

What a write does to a tree, whether it succeeds or not.

- `FileTree.layDirectories_changes`: directories on the way are made where nothing stands, and
  nothing else is changed, also when that fails.
- `FileTree.writeBytes_ok`: a file that was written is found by its path, with what was
  written.
- `FileTree.writeBytes_error`: a write that fails leaves the tree as it was, but for one case:
  a fault of the file system can break it off when the file has been emptied already.
-/
namespace RoutineWatch.FileTree

section
variable {t t' : FileTree} {faults : Faults} {here place : Place} {p : Path}

/-! Directories -/

/-- A new directory is made where nothing stands. -/
theorem newPlace_vacant (free : t.newPlace here p = .ok place) : t.node? place = none := by
  unfold newPlace at free
  dsimp only at free
  split at free
  · cases free
  · split at free
    · split at free <;> cases free
    · split at free
      · cases free
      · cases free
      · split at free
        · cases free
        · split at free
          · cases free
          · next vacant =>
            cases free
            simpa using vacant

theorem makeDirectory_ok (made : t.makeDirectory faults here p = .ok t') :
    ∃ place, t.node? place = none ∧ t' = t.put place .directory := by
  unfold makeDirectory at made
  cases free : t.newPlace here p with
  | error code => simp [free] at made
  | ok place =>
    rw [free] at made
    dsimp only at made
    split at made
    · cases made
      exact ⟨place, newPlace_vacant free, rfl⟩
    · cases made

theorem makeDirectory_changes (made : t.makeDirectory faults here p = .ok t') :
    Changes (fun _ => False) t t' := by
  obtain ⟨place, vacant, rfl⟩ := makeDirectory_ok made
  exact .single (.directory vacant)

/-- Making a directory and those on the way changes nothing else. -/
theorem layDirectories_changes (t : FileTree) (faults : Faults) (here : Place) (fuel : Nat)
    (p : Path) : Changes (fun _ => False) t (t.layDirectories faults here fuel p).1 := by
  fun_induction layDirectories t faults here fuel p with
  | case1 => exact .refl
  | case2 fuel p _ after made => exact makeDirectory_changes made
  | case3 => exact .refl
  | case4 p _ code _ _ fuel parent above after cause failed ih =>
    rw [failed] at ih
    exact ih
  | case5 p _ code _ _ fuel parent above between laid after made ih =>
    rw [laid] at ih
    exact ih.trans (makeDirectory_changes made)
  | case6 p _ code _ _ fuel parent above between laid _ _ ih =>
    rw [laid] at ih
    exact ih
  | case7 => exact .refl

/-! Files -/

/-- A file that is put where a path leads is found by the path. -/
theorem locate?_put {w : Walked} {contents : Bytes} {executable : Bool}
    (followed : t.follow true here p = w)
    (ends : w = .found place ∧ (∃ old, t.node? place = some (.file old executable)) ∨
      w = .vacant place) :
    Changes (· = place) t (t.put place (.file contents executable)) ∧
      (t.put place (.file contents executable)).locate? here p = .ok place ∧
      (t.put place (.file contents executable)).contents? place = some contents := by
  have settled : ∀ code, w ≠ .failed code := by
    rintro code rfl
    rcases ends with ⟨found, _⟩ | vacant
    · cases found
    · cases vacant
  obtain ⟨begun, leads⟩ := leads_follow followed settled
  have free : t.node? place = none ∨ ∃ old, t.node? place = some (.file old executable) := by
    rcases ends with ⟨_, stands⟩ | rfl
    · exact Or.inr stands
    · exact Or.inl leads.node?_vacant
  have changes : Changes (· = place) t (t.put place (.file contents executable)) :=
    .single (.file rfl free)
  have stands : (t.put place (.file contents executable)).node? place =
      some (.file contents executable) := by
    rw [node?_put t (ne_root_of_free free), if_pos rfl]
  refine ⟨changes, ?_, contents?_eq_some_iff.2 ⟨executable, stands⟩⟩
  rw [locate?_eq_ok_iff]
  refine ⟨begun, leads.kept changes.keeps ?_⟩
  exact ends.imp (·.1) fun vacant => ⟨vacant, contents, executable, stands⟩

/-- A file that is put where it can be written is found by its path. -/
theorem filePlace_put {executable : Bool} (free : t.filePlace here p = .ok (place, executable))
    (contents : Bytes) :
    Changes (· = place) t (t.put place (.file contents executable)) ∧
      (t.put place (.file contents executable)).locate? here p = .ok place ∧
      (t.put place (.file contents executable)).contents? place = some contents := by
  unfold filePlace at free
  split at free
  · split at free <;> cases free
  · split at free
    · cases free
    · next vacant =>
      cases free
      exact locate?_put vacant (Or.inr rfl)
    · next found =>
      split at free
      · next old executable' stands =>
        cases free
        exact locate?_put found (Or.inl ⟨rfl, old, stands⟩)
      · cases free

/-- A file that was written is found by its path, with what was written. -/
theorem writeBytes_ok {contents : Bytes}
    (written : t.writeBytes faults here p contents = (t', .ok ())) :
    ∃ place, Changes (· = place) t t' ∧ t'.locate? here p = .ok place ∧
      t'.contents? place = some contents := by
  unfold writeBytes at written
  split at written
  · cases written
  · next place executable free =>
    split at written
    · cases written
      exact ⟨place, filePlace_put free contents⟩
    · cases written
    · cases written

/-- A write that fails leaves the tree as it was, or by a fault of the file system the file
with the start of what was to be written. -/
theorem writeBytes_error {contents : Bytes} {cause : IoCause}
    (failed : t.writeBytes faults here p contents = (t', .error cause)) :
    t' = t ∨ ∃ place kept, faults.file t place contents = some (.brokenOff kept cause) ∧
      Changes (· = place) t t' ∧ t'.locate? here p = .ok place ∧
      t'.contents? place = some (contents.take kept) := by
  unfold writeBytes at failed
  split at failed
  · cases failed
    exact Or.inl rfl
  · next place executable free =>
    split at failed
    · cases failed
    · cases failed
      exact Or.inl rfl
    · next kept cause' fault =>
      cases failed
      exact Or.inr ⟨place, kept, fault, filePlace_put free (contents.take kept)⟩

end

end RoutineWatch.FileTree
