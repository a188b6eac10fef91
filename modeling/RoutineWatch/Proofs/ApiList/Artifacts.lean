import Mathlib.Data.List.Forall2
import RoutineWatch.Command.ApiList
import RoutineWatch.Proofs.FileTree.Writing
import RoutineWatch.Proofs.Text.RoundTrip

/-!
# Writing and comparing the generated files

The two files one after the other, up to one that fails.

- `Artifact.writeAll_ok`: each file that is written is found by its path.
- `Artifact.writeAll_error`: a run that fails has written all files up to one
  (`Artifact.write_error` tells what that leaves).
- `Artifact.compareAll_fresh`, `Artifact.checkedIn_of_compareAll`: no file is out of date
  exactly if all have the generated contents.
-/
namespace RoutineWatch.Artifact
open FileTree

section
variable {t t' : FileTree} {faults : Faults} {here : Place} {a : Artifact}

theorem makeWay_changes (t : FileTree) (faults : Faults) (here : Place) (a : Artifact) :
    Changes (fun _ => False) t (makeWay t faults here a).1 := by
  unfold makeWay
  split
  · exact .refl
  · exact layDirectories_changes t faults here _ _

/-- A file that was written is found by its path, with the generated contents. -/
theorem write_ok (run : write t faults here a = (t', .ok ())) :
    ∃ place, Changes (· = place) t t' ∧ t'.locate? here a.path = .ok place ∧
      t'.contents? place = some (Utf8.encode a.contents) := by
  have way := makeWay_changes t faults here a
  unfold write at run
  split at run
  · cases run
  · next between made =>
    rw [made] at way
    obtain ⟨⟨after, result⟩, written⟩ :
        ∃ r, between.writeBytes faults here a.path (Utf8.encode a.contents) = r := ⟨_, rfl⟩
    rw [written] at run
    cases result with
    | error cause => cases run
    | ok _ =>
      cases run
      obtain ⟨place, changes, located, held⟩ := writeBytes_ok written
      exact ⟨place, (way.mono fun _ => False.elim).trans changes, located, held⟩

/-- A write that fails touches no file, or by a fault of the file system the file has the
start of the generated contents. -/
theorem write_error {e : Error} (run : write t faults here a = (t', .error e)) :
    Changes (fun _ => False) t t' ∨ ∃ between place kept cause,
      faults.file between place (Utf8.encode a.contents) = some (.brokenOff kept cause) ∧
        Changes (· = place) t t' ∧ t'.locate? here a.path = .ok place ∧
        t'.contents? place = some ((Utf8.encode a.contents).take kept) := by
  have way := makeWay_changes t faults here a
  unfold write at run
  split at run
  · next between cause made =>
    cases run
    rw [made] at way
    exact Or.inl way
  · next between made =>
    rw [made] at way
    obtain ⟨⟨after, result⟩, written⟩ :
        ∃ r, between.writeBytes faults here a.path (Utf8.encode a.contents) = r := ⟨_, rfl⟩
    rw [written] at run
    cases result with
    | ok _ => cases run
    | error cause =>
      cases run
      rcases writeBytes_error written with rfl | ⟨place, kept, fault, changes, left⟩
      · exact Or.inl way
      · exact Or.inr ⟨between, place, kept, cause, fault,
          (way.mono fun _ => False.elim).trans changes, left⟩

end

/-! All files -/

/-- After a run that succeeds each file is found by its path, and if the paths lead to
different files, each has the generated contents. -/
theorem writeAll_ok {t t' : FileTree} {faults : Faults} {here : Place} {artifacts : List Artifact}
    {notices : List Notice} (run : writeAll t faults here artifacts = (t', .ok (), notices)) :
    ∃ places : List Place, Changes (· ∈ places) t t' ∧
      List.Forall₂ (fun a place => t'.locate? here a.path = .ok place) artifacts places ∧
      (places.Nodup → List.Forall₂
        (fun a place => t'.contents? place = some (Utf8.encode a.contents)) artifacts places) := by
  induction artifacts generalizing t notices with
  | nil =>
    cases run
    exact ⟨[], .refl, .nil, fun _ => .nil⟩
  | cons a rest ih =>
    unfold writeAll at run
    dsimp only at run
    split at run
    · cases run
    · next between written =>
      obtain ⟨place, changes, located, held⟩ := write_ok written
      obtain ⟨⟨after, result, more⟩, others⟩ :
          ∃ r, writeAll between faults here rest = r := ⟨_, rfl⟩
      rw [others] at run
      cases run
      obtain ⟨places, further, found, contents⟩ := ih others
      refine ⟨place :: places, ?_, .cons (further.keeps.locate? located) found, ?_⟩
      · exact (changes.mono fun _ same => List.mem_cons.2 (Or.inl same)).trans
          (further.mono fun _ => List.mem_cons_of_mem _)
      · intro distinct
        obtain ⟨apart, distinct⟩ := List.nodup_cons.1 distinct
        refine .cons ?_ (contents distinct)
        rw [further.contents?_eq apart, held]

/-- A run that fails has written the files before some file, and failed to write that. -/
theorem writeAll_error {t t' : FileTree} {faults : Faults} {here : Place}
    {artifacts : List Artifact} {e : Error} {notices : List Notice}
    (run : writeAll t faults here artifacts = (t', .error e, notices)) :
    ∃ done a rest between earlier, artifacts = done ++ a :: rest ∧
      writeAll t faults here done = (between, .ok (), earlier) ∧
      write between faults here a = (t', .error e) := by
  induction artifacts generalizing t notices with
  | nil => cases run
  | cons a rest ih =>
    unfold writeAll at run
    dsimp only at run
    split at run
    · next after cause failed =>
      cases run
      exact ⟨[], a, rest, t, [], rfl, rfl, failed⟩
    · next between written =>
      obtain ⟨⟨after, result, more⟩, others⟩ : ∃ r, writeAll between faults here rest = r :=
        ⟨_, rfl⟩
      rw [others] at run
      cases run
      obtain ⟨done, stuck, left, last, earlier, rfl, before, failed⟩ := ih others
      refine ⟨a :: done, stuck, left, last, .info ("writing " ++ a.path.display) :: earlier, rfl,
        ?_, failed⟩
      simp only [writeAll, written, before]

/-! Comparing -/

/-- Files that have the generated contents are not out of date. -/
theorem compareAll_fresh {t : FileTree} {here : Place} {colored : Bool}
    {artifacts : List Artifact}
    (fresh : ∀ a ∈ artifacts, t.readText here a.path = .ok a.contents) :
    compareAll t here colored artifacts = ⟨[], "", none⟩ := by
  induction artifacts with
  | nil => rfl
  | cons a rest ih =>
    have same : checkedIn t here a = .ok a.contents := by
      rw [checkedIn, fresh a List.mem_cons_self]
    simp only [compareAll, same, Drift.check, if_pos]
    exact ih fun b member => fresh b (List.mem_cons_of_mem _ member)

theorem checkedIn_of_contents? {t : FileTree} {here place : Place} {a : Artifact} {text : String}
    (located : t.locate? here a.path = .ok place)
    (held : t.contents? place = some (Utf8.encode text)) : checkedIn t here a = .ok text := by
  have read : t.readText here a.path = .ok text :=
    readText_eq_ok_iff.2 ⟨_, readBytes_eq_ok_iff.2 ⟨place, located, held⟩, Utf8.decode?_encode text⟩
  rw [checkedIn, read]

/-- Files of which none is out of date have the generated contents. -/
theorem checkedIn_of_compareAll {t : FileTree} {here : Place} {colored : Bool}
    {artifacts : List Artifact} (readable : (compareAll t here colored artifacts).failure = none)
    (upToDate : (compareAll t here colored artifacts).stale = []) :
    ∀ a ∈ artifacts, checkedIn t here a = .ok a.contents := by
  induction artifacts with
  | nil => exact fun _ none => absurd none List.not_mem_nil
  | cons a rest ih =>
    unfold compareAll at readable upToDate
    split at readable
    · cases readable
    · next actual read =>
      rw [read] at upToDate
      dsimp only at readable upToDate
      cases drift : Drift.check actual a.contents with
      | some d => simp [drift] at upToDate
      | none =>
        rw [drift] at readable upToDate
        have same : actual = a.contents := by
          unfold Drift.check at drift
          split at drift
          · next same => exact same
          · cases drift
        intro b member
        rcases List.mem_cons.1 member with rfl | member
        · rw [read, same]
        · exact ih readable upToDate b member

end RoutineWatch.Artifact
