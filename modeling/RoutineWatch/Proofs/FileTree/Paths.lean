import RoutineWatch.Proofs.FileTree.Growth
import RoutineWatch.Proofs.Path.Parent

/-!
# Paths in a tree that grows

Reading by path, told by where the path leads. What is read is what was read before, unless
it is written.

- `FileTree.locate?_eq_ok_iff`, `FileTree.readText_eq_ok_iff`: reading as a walk that leads
  somewhere.
- `FileTree.Keeps.locate?`: a path that leads somewhere leads there still.
- `FileTree.Changes.readText`: a text that is not written is read as before.
-/
namespace RoutineWatch.FileTree

/-- Where a path starts. -/
abbrev origin (here : Place) (p : Path) : Place := if p.isAbsolute then [] else here

section
variable {t t' : FileTree} {here place : Place} {p : Path}

/-- A path that can be followed leads where that ends. -/
theorem leads_follow {last : Bool} {w : Walked} (followed : t.follow last here p = w)
    (settled : ∀ code, w ≠ .failed code) :
    p.bytes ≠ [] ∧ Leads t last linkLimit (origin here p) (steps p) w := by
  unfold follow at followed
  split at followed
  · exact absurd followed.symm (settled _)
  · next begun =>
    subst followed
    exact ⟨begun, leads_walk settled⟩

theorem locate?_eq_ok_iff :
    t.locate? here p = .ok place ↔
      p.bytes ≠ [] ∧ Leads t true linkLimit (origin here p) (steps p) (.found place) := by
  unfold locate? follow
  by_cases empty : p.bytes = []
  · simp [empty]
  · rw [if_neg empty, ← walk_found_iff]
    cases t.walk true linkLimit (origin here p) (steps p) <;> simp [empty]

/-- A dot leads to where it stands. -/
theorem Leads.eq_of_dots {links : Nat} {parts : List Bytes}
    (leads : Leads t true links here parts (.found place))
    (dots : ∀ part ∈ parts, part = RoutineWatch.dot) : place = here := by
  generalize ends : Walked.found place = w at leads
  induction leads with
  | done => cases ends; rfl
  | dot _ _ ih => exact ih (fun part member => dots part (List.mem_cons_of_mem _ member)) ends
  | dotDot => exact absurd (dots _ List.mem_cons_self) (by decide)
  | vacant _ name => exact absurd (dots _ List.mem_cons_self) name.1
  | lastLink _ name => exact absurd (dots _ List.mem_cons_self) name.1
  | link _ name => exact absurd (dots _ List.mem_cons_self) name.1
  | entry _ name => exact absurd (dots _ List.mem_cons_self) name.1

theorem isDirectory_iff :
    t.isDirectory here p = true ↔
      ∃ place, t.locate? here p = .ok place ∧ t.node? place = some .directory := by
  unfold isDirectory lookup?
  cases t.locate? here p with
  | error code => simp
  | ok place => simp

/-- What has no parent is the root, a directory. -/
theorem directory_of_no_parent (top : p.parent? = none) (located : t.locate? here p = .ok place) :
    t.node? place = some .directory := by
  obtain ⟨begun, leads⟩ := locate?_eq_ok_iff.1 located
  obtain ⟨absolute, dots⟩ := Path.dots_of_no_parent top begun
  have idle : ∀ part ∈ steps p, part = dot := by
    rw [Path.steps_eq]
    split
    · intro part member
      rcases List.mem_append.1 member with member | member
      · exact dots part member
      · exact List.mem_singleton.1 member
    · exact dots
  rw [origin, if_pos absolute] at leads
  rw [leads.eq_of_dots idle]
  rfl

/-! Reading -/

theorem readBytes_eq_ok_iff {contents : Bytes} :
    t.readBytes here p = .ok contents ↔
      ∃ place, t.locate? here p = .ok place ∧ t.contents? place = some contents := by
  unfold readBytes contents?
  cases located : t.locate? here p with
  | error code => simp
  | ok place =>
    cases node : t.node? place with
    | none => simp [node]
    | some node' => cases node' <;> simp [node]

theorem readText_eq_ok_iff {text : String} :
    t.readText here p = .ok text ↔
      ∃ contents, t.readBytes here p = .ok contents ∧ Utf8.decode? contents = .ok text := by
  unfold readText
  cases t.readBytes here p with
  | error cause => simp [bind, Except.bind]
  | ok contents =>
    cases decoded : Utf8.decode? contents with
    | error fault => simp [bind, Except.bind, decoded]
    | ok text' => simp [bind, Except.bind, decoded]

/-- What is read has a parent. -/
theorem parent?_of_readText {text : String} (read : t.readText here p = .ok text) :
    ∃ dir, p.parent? = some dir := by
  obtain ⟨contents, bytes, _⟩ := readText_eq_ok_iff.1 read
  obtain ⟨place, located, held⟩ := readBytes_eq_ok_iff.1 bytes
  rw [← Option.isSome_iff_exists, Option.isSome_iff_ne_none]
  intro top
  rw [contents?, directory_of_no_parent top located] at held
  cases held

/-! What is kept -/

theorem Keeps.locate? (keeps : Keeps t t') (located : t.locate? here p = .ok place) :
    t'.locate? here p = .ok place := by
  rw [locate?_eq_ok_iff] at located ⊢
  exact ⟨located.1, located.2.kept keeps (Or.inl rfl)⟩

theorem Keeps.pathExists (keeps : Keeps t t') (present : t.pathExists here p = true) :
    t'.pathExists here p = true := by
  unfold FileTree.pathExists lookup? at present ⊢
  cases located : t.locate? here p with
  | error code => simp [located] at present
  | ok place =>
    simp only [located] at present
    simp only [keeps.locate? located]
    exact keeps.isSome present

/-- A text that is not written is read as before. -/
theorem Changes.readText {written : Place → Prop} (changes : Changes written t t')
    {text : String} (read : t.readText here p = .ok text)
    (other : ∀ place, t.locate? here p = .ok place → ¬ written place) :
    t'.readText here p = .ok text := by
  obtain ⟨contents, bytes, decoded⟩ := readText_eq_ok_iff.1 read
  obtain ⟨place, located, held⟩ := readBytes_eq_ok_iff.1 bytes
  refine readText_eq_ok_iff.2 ⟨contents, readBytes_eq_ok_iff.2 ⟨place, ?_, ?_⟩, decoded⟩
  · exact changes.keeps.locate? located
  · rw [changes.contents?_eq (other place located)]
    exact held

end

end RoutineWatch.FileTree
