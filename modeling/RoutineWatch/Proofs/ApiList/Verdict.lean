import RoutineWatch.Proofs.ApiList.Artifacts
import RoutineWatch.Proofs.ApiList.Run
import RoutineWatch.Proofs.Program.Ending

/-!
# The verdict of a comparison

A comparison passes exactly if every file is there and has the generated contents. A missing
file counts as an empty one, and since nothing that is generated is empty, it never passes.

- `Artifact.Verdict`: how a comparison ends, by what the files are.
- `Artifact.checkArtifacts_verdict`: files of which none should be empty are judged.
- `Command.comparison_verdict`: so are the generated ones.
- `Command.blocked_comparison`: a file in the place of a directory is no missing file.

Files are compared in order, and one that cannot be read ends the comparison.
-/
namespace RoutineWatch.Artifact
open FileTree

section
variable (t : FileTree) (here : Place)

/-- The file is there and has this text. -/
def Holds (a : Artifact) (text : String) : Prop :=
  ∃ place, t.locate? here a.path = .ok place ∧ t.contents? place = some (Utf8.encode text)

/-- The system finds no such file or directory. -/
def Missing (a : Artifact) : Prop := t.locate? here a.path = .error SystemError.noEntry

/-- The file is missing, or it has a text that was not generated. -/
def Stale (a : Artifact) : Prop := Missing t here a ∨ ∃ text, Holds t here a text ∧ text ≠ a.contents

/-- The file is not missing, and it has no text: it is a directory or not UTF-8, or the way to
it does not lead through directories. -/
def Unreadable (a : Artifact) : Prop := ¬ Missing t here a ∧ ∀ text, ¬ Holds t here a text

/-- What the generated contents are compared with. -/
def ComparesWith (a : Artifact) (text : String) : Prop :=
  Holds t here a text ∨ Missing t here a ∧ text = ""

/-- What is printed of a file: nothing if it is up to date, else a section with a diff. -/
inductive Shows (colored : Bool) (a : Artifact) : String → Prop where
  | fresh (held : Holds t here a a.contents) : Shows colored a ""
  | stale {text : String} (stale : Stale t here a) (compared : ComparesWith t here a text) :
    Shows colored a
      (staleSection colored a ⟨Diff.unified "actual" "expected" text a.contents⟩)

/-- A comparison of files, judged by how it ends. -/
structure Verdict (colored : Bool) (artifacts : List Artifact) (run : CommandRun) : Prop where
  passes : run.exitStatus = 0 ↔ ∀ a ∈ artifacts, a.Holds t here a.contents
  drifts : run.exitStatus = 1 ↔
    (∀ a ∈ artifacts, a.Missing t here ∨ ∃ text, a.Holds t here text) ∧
      ∃ a ∈ artifacts, a.Stale t here
  fails : run.exitStatus = 3 ↔ ∃ a ∈ artifacts, a.Unreadable t here
  missing : ∀ a ∈ artifacts, a.Missing t here → run.exitStatus ≠ 0
  /-- The sections of the stale files are printed in the order of the files, and no others. -/
  shown : run.exitStatus = 1 → ∃ sections, List.Forall₂ (Shows t here colored) artifacts sections ∧
    run.printed = String.join sections ++ if colored then String.ofList Style.reset else ""
  /-- The first stale file is named. -/
  named : run.exitStatus = 1 → ∃ before a after, artifacts = before ++ a :: after ∧
    (∀ b ∈ before, b.Holds t here b.contents) ∧ a.Stale t here ∧
    run.result = .error (.drift a.path)

end

section
variable {t : FileTree} {here : Place} {a : Artifact} {text other : String}

theorem holds_iff_readText : Holds t here a text ↔ t.readText here a.path = .ok text := by
  simp only [Holds, readText_eq_ok_iff, readBytes_eq_ok_iff, Utf8.decode?_eq_ok_iff]
  constructor
  · rintro ⟨place, located, held⟩
    exact ⟨_, ⟨place, located, held⟩, rfl⟩
  · rintro ⟨_, ⟨place, located, held⟩, rfl⟩
    exact ⟨place, located, held⟩

theorem missing_iff_readText :
    Missing t here a ↔ t.readText here a.path = .error (.os SystemError.noEntry) := by
  unfold Missing readText readBytes
  cases t.locate? here a.path with
  | error code => simp [bind, Except.bind]
  | ok place =>
    cases node : t.node? place with
    | none => simp [node, bind, Except.bind, SystemError.isDirectory, SystemError.noEntry]
    | some entry =>
      cases entry with
      | file contents executable =>
        cases decoded : Utf8.decode? contents <;> simp [node, bind, Except.bind, decoded]
      | _ => simp [node, bind, Except.bind, SystemError.isDirectory, SystemError.noEntry]

theorem holds_unique (one : Holds t here a text) (two : Holds t here a other) : text = other := by
  rw [holds_iff_readText] at one two
  exact Except.ok.inj (one.symm.trans two)

theorem not_missing_of_holds (held : Holds t here a text) : ¬ Missing t here a := by
  obtain ⟨place, located, _⟩ := held
  rw [Missing, located]
  exact nofun

theorem not_stale_of_holds (held : Holds t here a a.contents) : ¬ Stale t here a := by
  rintro (missing | ⟨text, other, differs⟩)
  · exact not_missing_of_holds held missing
  · exact differs (holds_unique other held)

theorem not_unreadable_iff :
    ¬ Unreadable t here a ↔ Missing t here a ∨ ∃ text, Holds t here a text := by
  rw [Unreadable, not_and_or, not_not]
  simp

theorem not_unreadable_of_stale (stale : Stale t here a) : ¬ Unreadable t here a :=
  not_unreadable_iff.2 (stale.imp_right fun ⟨text, held, _⟩ => ⟨text, held⟩)

/-- A file is unreadable, up to date or stale, and a comparison tells which, provided that it
should not be empty. -/
theorem checkedIn_cases (t : FileTree) (here : Place) (a : Artifact) (filled : a.contents ≠ "") :
    (Unreadable t here a ∧ ∃ cause, checkedIn t here a = .error (.io a.path cause)) ∨
      (Holds t here a a.contents ∧ checkedIn t here a = .ok a.contents) ∨
      ∃ text, Stale t here a ∧ ComparesWith t here a text ∧ text ≠ a.contents ∧
        checkedIn t here a = .ok text := by
  unfold checkedIn
  cases read : t.readText here a.path with
  | ok text =>
    have held : Holds t here a text := holds_iff_readText.2 read
    by_cases same : text = a.contents
    · exact Or.inr (Or.inl ⟨same ▸ held, by rw [same]⟩)
    · exact Or.inr (Or.inr ⟨text, Or.inr ⟨text, held, same⟩, Or.inl held, same, rfl⟩)
  | error cause =>
    dsimp only
    split
    · next absent =>
      have missing : Missing t here a := missing_iff_readText.2 (by rw [read, absent])
      exact Or.inr (Or.inr ⟨"", Or.inl missing, Or.inr ⟨missing, rfl⟩, filled.symm, rfl⟩)
    · next present =>
      -- Only one error means that a file is missing; with any other it is not taken for empty.
      refine Or.inl ⟨⟨fun missing => ?_, fun text held => ?_⟩, cause, rfl⟩
      · rw [missing_iff_readText, read] at missing
        exact present (Except.error.inj missing)
      · rw [holds_iff_readText, read] at held
        cases held

end

/-- How a comparison goes, file by file. -/
inductive Compares (t : FileTree) (here : Place) (colored : Bool) :
    List Artifact → Comparison → Prop where
  | done : Compares t here colored [] ⟨[], "", none⟩
  | unreadable {a : Artifact} (rest : List Artifact) (cause : IoCause)
      (unread : Unreadable t here a) :
    Compares t here colored (a :: rest) ⟨[], "", some (.io a.path cause)⟩
  | fresh {a : Artifact} {rest : List Artifact} {c : Comparison} (held : Holds t here a a.contents)
      (others : Compares t here colored rest c) : Compares t here colored (a :: rest) c
  | stale {a : Artifact} {rest : List Artifact} {c : Comparison} {text : String}
      (stale : Stale t here a) (compared : ComparesWith t here a text)
      (others : Compares t here colored rest c) :
    Compares t here colored (a :: rest)
      ⟨a.path :: c.stale,
        staleSection colored a ⟨Diff.unified "actual" "expected" text a.contents⟩ ++ c.printed,
        c.failure⟩

section
variable {t : FileTree} {here : Place} {colored : Bool} {artifacts : List Artifact} {c : Comparison}

theorem compares_compareAll (t : FileTree) (here : Place) (colored : Bool)
    (filled : ∀ a ∈ artifacts, a.contents ≠ "") :
    Compares t here colored artifacts (compareAll t here colored artifacts) := by
  induction artifacts with
  | nil => exact .done
  | cons a rest ih =>
    rw [List.forall_mem_cons] at filled
    unfold compareAll
    rcases checkedIn_cases t here a filled.1 with
      ⟨unread, cause, read⟩ | ⟨held, read⟩ | ⟨text, stale, compared, differs, read⟩
    · rw [read]
      exact .unreadable rest cause unread
    · simp only [read, Drift.check, if_pos]
      exact .fresh held (ih filled.2)
    · simp only [read, Drift.check, if_neg differs]
      exact .stale stale compared (ih filled.2)

/-- A comparison that breaks off has come to an unreadable file. -/
theorem Compares.unreadable_of_failure {e : Error}
    (compares : Compares t here colored artifacts c) (failed : c.failure = some e) :
    (∃ a ∈ artifacts, Unreadable t here a) ∧ e.exitCode = .internalError := by
  induction compares with
  | done => cases failed
  | unreadable rest cause unread =>
    cases failed
    exact ⟨⟨_, List.mem_cons_self, unread⟩, rfl⟩
  | fresh _ _ ih | stale _ _ _ ih =>
    obtain ⟨⟨b, member, unread⟩, code⟩ := ih failed
    exact ⟨⟨b, List.mem_cons_of_mem _ member, unread⟩, code⟩

theorem Compares.readable (compares : Compares t here colored artifacts c)
    (ended : c.failure = none) : ∀ a ∈ artifacts, ¬ Unreadable t here a := by
  induction compares with
  | done => exact fun _ member => absurd member List.not_mem_nil
  | unreadable rest cause unread => cases ended
  | fresh held _ ih =>
    exact List.forall_mem_cons.2 ⟨not_unreadable_iff.2 (Or.inr ⟨_, held⟩), ih ended⟩
  | stale stale _ _ ih =>
    exact List.forall_mem_cons.2 ⟨not_unreadable_of_stale stale, ih ended⟩

/-- What a comparison prints that comes to its end. -/
theorem Compares.shows (compares : Compares t here colored artifacts c) (ended : c.failure = none) :
    ∃ sections, List.Forall₂ (Shows t here colored) artifacts sections ∧
      c.printed = String.join sections := by
  induction compares with
  | done => exact ⟨[], .nil, rfl⟩
  | unreadable rest cause unread => cases ended
  | fresh held others ih =>
    obtain ⟨sections, shows, printed⟩ := ih ended
    exact ⟨"" :: sections, .cons (.fresh held) shows, by simp [printed]⟩
  | stale stale compared others ih =>
    obtain ⟨sections, shows, printed⟩ := ih ended
    exact ⟨_ :: sections, .cons (.stale stale compared) shows, by simp [printed]⟩

/-- The stale files of a comparison that comes to its end: none, or first of all the first one. -/
theorem Compares.stale_cases (compares : Compares t here colored artifacts c)
    (ended : c.failure = none) :
    ((∀ a ∈ artifacts, Holds t here a a.contents) ∧ c.stale = []) ∨
      ∃ before a after, artifacts = before ++ a :: after ∧
        (∀ b ∈ before, Holds t here b b.contents) ∧ Stale t here a ∧
        ∃ others, c.stale = a.path :: others := by
  induction compares with
  | done => exact Or.inl ⟨fun _ member => absurd member List.not_mem_nil, rfl⟩
  | unreadable rest cause unread => cases ended
  | @fresh a rest c held others ih =>
    rcases ih ended with ⟨fresh, empty⟩ | ⟨before, b, after, rfl, fresh, found⟩
    · exact Or.inl ⟨List.forall_mem_cons.2 ⟨held, fresh⟩, empty⟩
    · exact Or.inr ⟨a :: before, b, after, rfl, List.forall_mem_cons.2 ⟨held, fresh⟩, found⟩
  | @stale a rest c text stale compared others ih =>
    exact Or.inr ⟨[], a, rest, rfl, fun _ member => absurd member List.not_mem_nil, stale, _, rfl⟩

theorem Verdict.of_unreadable {run : CommandRun} {a : Artifact} (member : a ∈ artifacts)
    (unreadable : Unreadable t here a) (status : run.exitStatus = 3) :
    Verdict t here colored artifacts run where
  passes := by
    rw [status]
    exact iff_of_false (by decide) fun all => unreadable.2 _ (all a member)
  drifts := by
    rw [status]
    exact iff_of_false (by decide)
      fun ⟨texts, _⟩ => not_unreadable_iff.2 (texts a member) unreadable
  fails := iff_of_true status ⟨a, member, unreadable⟩
  missing := by simp [status]
  shown := by simp [status]
  named := by simp [status]

theorem Verdict.of_fresh {run : CommandRun} (fresh : ∀ a ∈ artifacts, Holds t here a a.contents)
    (status : run.exitStatus = 0) : Verdict t here colored artifacts run where
  passes := iff_of_true status fresh
  drifts := by
    rw [status]
    exact iff_of_false (by decide)
      fun ⟨_, b, member, stale⟩ => not_stale_of_holds (fresh b member) stale
  fails := by
    rw [status]
    exact iff_of_false (by decide)
      fun ⟨b, member, unreadable⟩ => unreadable.2 _ (fresh b member)
  missing := fun b member missing => absurd missing (not_missing_of_holds (fresh b member))
  shown := by simp [status]
  named := by simp [status]

theorem Verdict.of_stale {run : CommandRun} {a : Artifact} {before after : List Artifact}
    {sections : List String} (readable : ∀ a ∈ artifacts, ¬ Unreadable t here a)
    (split : artifacts = before ++ a :: after)
    (fresh : ∀ b ∈ before, Holds t here b b.contents) (stale : Stale t here a)
    (result : run.result = .error (.drift a.path))
    (shows : List.Forall₂ (Shows t here colored) artifacts sections)
    (printed : run.printed =
      String.join sections ++ if colored then String.ofList Style.reset else "") :
    Verdict t here colored artifacts run := by
  have status : run.exitStatus = 1 := by
    rw [CommandRun.exitStatus, result]
    rfl
  have member : a ∈ artifacts := by simp [split]
  exact {
    passes := by
      rw [status]
      exact iff_of_false (by decide) fun all => not_stale_of_holds (all a member) stale
    drifts := iff_of_true status
      ⟨fun b member => not_unreadable_iff.1 (readable b member), a, member, stale⟩
    fails := by
      rw [status]
      exact iff_of_false (by decide) fun ⟨b, member, unread⟩ => readable b member unread
    missing := by simp [status]
    shown := fun _ => ⟨sections, shows, printed⟩
    named := fun _ => ⟨before, a, after, split, fresh, stale, result⟩ }

/-- Files of which none should be empty are judged. -/
theorem checkArtifacts_verdict (filled : ∀ a ∈ artifacts, a.contents ≠ "")
    (notices : List Notice) :
    Verdict t here colored artifacts
      (Command.checkArtifacts t here colored artifacts notices) := by
  have compares := compares_compareAll t here colored filled
  unfold Command.checkArtifacts
  dsimp only
  cases ended : (compareAll t here colored artifacts).failure with
  | some e =>
    obtain ⟨⟨a, member, unread⟩, code⟩ := compares.unreadable_of_failure ended
    exact .of_unreadable member unread (by simp [CommandRun.exitStatus, code, ExitCode.value])
  | none =>
    obtain ⟨sections, shows, printed⟩ := compares.shows ended
    rw [printed]
    rcases compares.stale_cases ended with
      ⟨fresh, empty⟩ | ⟨before, a, after, split, fresh, stale, others, found⟩
    · rw [empty]
      exact .of_fresh fresh rfl
    · rw [found]
      exact .of_stale (compares.readable ended) split fresh stale rfl shows rfl

end

/-- No generated file is empty. -/
theorem contents_ne_empty {w : Workspace} {registry : Registry} :
    ∀ a ∈ ofRegistry w registry, a.contents ≠ "" := by
  intro a member
  simp only [ofRegistry, List.mem_cons, List.not_mem_nil, or_false] at member
  rcases member with rfl | rfl
  · simp [Registry.functionList]
  · simp [Registry.render]

end RoutineWatch.Artifact

namespace RoutineWatch.Command
open Artifact FileTree

/-- The verdict on the generated files, whatever the tool for the documentation made of the
tree. -/
theorem comparison_verdict {σ : Type} {runner : ToolRunner σ} {repositories : List Repository}
    {here : Place} {asked : Option Path} {state : σ} {w : Workspace} {registry : Registry}
    (extracts : Extracts runner repositories here asked state w registry) (colored : Bool) :
    Verdict (runner.files (extractRegistry runner here w state).state) here colored
      (ofRegistry w registry)
      (updateApiList runner repositories here asked true colored state).1 := by
  rw [extracts.updateApiList_eq true colored]
  exact checkArtifacts_verdict contents_ne_empty _

theorem empty_extracts :
    Extracts (.printing "\x7b\x7d") [] [] none .empty ⟨Path.ofString "/", {}⟩ TextMap.empty where
  opened := by cbv
  extracted := by cbv

/-- With no file at all, both generated files are missing and the comparison fails. -/
theorem empty_verdict :
    Verdict .empty [] false (ofRegistry ⟨Path.ofString "/", {}⟩ TextMap.empty)
        (updateApiList (.printing "\x7b\x7d") [] [] none true false .empty).1 ∧
      (updateApiList (.printing "\x7b\x7d") [] [] none true false .empty).1.exitStatus = 1 := by
  have verdict := comparison_verdict empty_extracts false
  rw [printing_tree] at verdict
  have missing : ∀ a ∈ ofRegistry ⟨Path.ofString "/", {}⟩ TextMap.empty,
      a.Missing .empty [] := by
    simp only [ofRegistry, List.forall_mem_cons, Missing]
    refine ⟨by cbv, by cbv, fun _ member => absurd member List.not_mem_nil⟩
  exact ⟨verdict, verdict.drifts.2
    ⟨fun a member => Or.inl (missing a member), _, List.mem_cons_self,
      Or.inl (missing _ List.mem_cons_self)⟩⟩

/-- A file where the directory of the generated files belongs. -/
def blockedTree : FileTree := ⟨[([Utf8.encode "etc"], .file (Utf8.encode "not a directory\n") false)]⟩

theorem blocked_extracts :
    Extracts (.printing "\x7b\x7d") [] [] none blockedTree ⟨Path.ofString "/", {}⟩
      TextMap.empty where
  opened := by cbv
  extracted := by cbv

/-- There neither generated file exists. But the system does not say that they are missing: it
says that the way to them is blocked, and that ends the comparison. -/
theorem blocked_comparison :
    Extracts (.printing "\x7b\x7d") [] [] none blockedTree ⟨Path.ofString "/", {}⟩ TextMap.empty ∧
      (∀ a ∈ ofRegistry ⟨Path.ofString "/", {}⟩ TextMap.empty,
        blockedTree.pathExists [] a.path = false) ∧
      (updateApiList (.printing "\x7b\x7d") [] [] none true false blockedTree).1.exitStatus = 3 := by
  have blocked : ∀ a ∈ ofRegistry ⟨Path.ofString "/", {}⟩ TextMap.empty,
      blockedTree.locate? [] a.path = .error SystemError.notDirectory := by
    simp only [ofRegistry, List.forall_mem_cons]
    refine ⟨by cbv, by cbv, fun _ member => absurd member List.not_mem_nil⟩
  have unreadable : ∀ a ∈ ofRegistry ⟨Path.ofString "/", {}⟩ TextMap.empty,
      a.Unreadable blockedTree [] := by
    intro a member
    refine ⟨?_, ?_⟩
    · rw [Missing, blocked a member]
      decide
    · rintro text ⟨place, located, _⟩
      rw [blocked a member] at located
      cases located
  refine ⟨blocked_extracts, fun a member => ?_, ?_⟩
  · rw [pathExists, lookup?, blocked a member]
    rfl
  · rw [blocked_extracts.updateApiList_eq true false, printing_tree]
    exact (checkArtifacts_verdict contents_ne_empty _).fails.2
      ⟨_, List.mem_cons_self, unreadable _ List.mem_cons_self⟩

end RoutineWatch.Command
