import Mathlib.Logic.Basic
import RoutineWatch.FileTree.Walk

/-!
# Walks as a relation

Walks that lead somewhere: to an entry, or to a place in a directory at which nothing stands.
The relation and the function agree, so what is said of walks is proved by induction over
their steps.

- `FileTree.Leads`: the relation.
- `FileTree.walk_found_iff`: a walk leads where it ends, unless it fails.
- `FileTree.Leads.split`: a walk through more parts first leads to where the first ones lead.
-/
namespace RoutineWatch.FileTree

/-- A walk that leads to an entry or to a vacant place, step by step. -/
inductive Leads (t : FileTree) (last : Bool) : Nat → Place → List Bytes → Walked → Prop
  | done {links : Nat} {here : Place} : Leads t last links here [] (.found here)
  | dot {links : Nat} {here : Place} {rest : List Bytes} {goal : Walked}
      (inside : t.node? here = some .directory) (more : Leads t last links here rest goal) :
      Leads t last links here (dot :: rest) goal
  | dotDot {links : Nat} {here : Place} {rest : List Bytes} {goal : Walked}
      (inside : t.node? here = some .directory)
      (more : Leads t last links here.dropLast rest goal) :
      Leads t last links here (dotDot :: rest) goal
  | vacant {links : Nat} {here : Place} {part : Bytes}
      (inside : t.node? here = some .directory) (name : part ≠ dot ∧ part ≠ dotDot)
      (none : t.node? (here ++ [part]) = none) :
      Leads t last links here [part] (.vacant (here ++ [part]))
  | lastLink {links : Nat} {here : Place} {part : Bytes} {target : Path}
      (inside : t.node? here = some .directory) (name : part ≠ dot ∧ part ≠ dotDot)
      (link : t.node? (here ++ [part]) = some (.link target)) (stop : last = false) :
      Leads t last links here [part] (.found (here ++ [part]))
  | link {links : Nat} {here : Place} {part : Bytes} {rest : List Bytes} {target : Path}
      {goal : Walked} (inside : t.node? here = some .directory)
      (name : part ≠ dot ∧ part ≠ dotDot)
      (link : t.node? (here ++ [part]) = some (.link target)) (go : rest = [] → last = true)
      (more : Leads t last links (if target.isAbsolute then [] else here) (steps target ++ rest)
        goal) :
      Leads t last (links + 1) here (part :: rest) goal
  | entry {links : Nat} {here : Place} {part : Bytes} {rest : List Bytes} {node : FileNode}
      {goal : Walked} (inside : t.node? here = some .directory)
      (name : part ≠ dot ∧ part ≠ dotDot) (stands : t.node? (here ++ [part]) = some node)
      (plain : ∀ target, node ≠ .link target)
      (more : Leads t last links (here ++ [part]) rest goal) :
      Leads t last links here (part :: rest) goal

section
variable {t : FileTree} {last : Bool} {links : Nat} {here : Place} {parts : List Bytes}

/-- A walk that does not fail leads where it ends. -/
theorem leads_walk (settled : ∀ code, t.walk last links here parts ≠ .failed code) :
    Leads t last links here parts (t.walk last links here parts) := by
  fun_induction t.walk last links here parts with
  | case1 links here => exact .done
  | case2 links here part rest outside => exact absurd rfl (settled _)
  | case3 links here rest inside ih => exact .dot (not_not.1 inside) (ih settled)
  | case4 links here rest inside _ ih => exact .dotDot (not_not.1 inside) (ih settled)
  | case5 links here part inside notDot notDotDot vacant =>
    exact .vacant (not_not.1 inside) ⟨notDot, notDotDot⟩ vacant
  | case6 => exact absurd rfl (settled _)
  | case7 links here part rest inside notDot notDotDot target link stop =>
    simp only [Bool.and_eq_true, decide_eq_true_eq, Bool.not_eq_true'] at stop
    obtain ⟨rfl, stop⟩ := stop
    exact .lastLink (not_not.1 inside) ⟨notDot, notDotDot⟩ link stop
  | case8 => exact absurd rfl (settled _)
  | case9 here part rest inside notDot notDotDot target link go links ih =>
    refine .link (not_not.1 inside) ⟨notDot, notDotDot⟩ link (fun none => ?_) (ih settled)
    simpa [none] using go
  | case10 links here part rest inside notDot notDotDot node plain stands ih =>
    exact .entry (not_not.1 inside) ⟨notDot, notDotDot⟩ stands plain (ih settled)

/-- A walk ends where it leads. -/
theorem Leads.walk_eq {w : Walked} (leads : Leads t last links here parts w) :
    t.walk last links here parts = w := by
  induction leads with
  | done => rw [walk]
  | dot inside _ ih => rw [walk, if_neg (not_not.2 inside), if_pos rfl, ih]
  | dotDot inside _ ih =>
    rw [walk, if_neg (not_not.2 inside), if_neg (by decide), if_pos rfl, ih]
  | vacant inside name none =>
    rw [walk, if_neg (not_not.2 inside), if_neg name.1, if_neg name.2, none]
    simp
  | lastLink inside name link stop =>
    rw [walk, if_neg (not_not.2 inside), if_neg name.1, if_neg name.2, link]
    simp [stop]
  | @link links here part rest target goal inside name link go _ ih =>
    rw [walk, if_neg (not_not.2 inside), if_neg name.1, if_neg name.2, link]
    have on : ¬ (decide (rest = []) && !last) = true := by simpa using go
    simp only [if_neg on, ih]
  | @entry links here part rest node goal inside name stands plain _ ih =>
    rw [walk, if_neg (not_not.2 inside), if_neg name.1, if_neg name.2, stands]
    cases node with
    | directory => exact ih
    | file contents executable => exact ih
    | link target => exact absurd rfl (plain target)

/-- A walk leads where it ends, unless it fails. -/
theorem walk_found_iff {q : Place} :
    t.walk last links here parts = .found q ↔ Leads t last links here parts (.found q) := by
  constructor
  · intro found
    have leads := @leads_walk t last links here parts
    rw [found] at leads
    exact leads fun _ => Walked.noConfusion
  · exact Leads.walk_eq

/-- Nothing stands at a vacant place. -/
theorem Leads.node?_vacant {q : Place} (leads : Leads t last links here parts (.vacant q)) :
    t.node? q = none := by
  generalize goal : Walked.vacant q = w at leads
  induction leads with
  | done => cases goal
  | lastLink => cases goal
  | vacant inside name none =>
    cases goal
    exact none
  | dot _ _ ih => exact ih goal
  | dotDot _ _ ih => exact ih goal
  | link _ _ _ _ _ ih => exact ih goal
  | entry _ _ _ _ _ ih => exact ih goal

/-- A walk through more parts first leads to where the first ones lead, with as many links
left as that takes. -/
theorem Leads.split {w : Walked} {ahead rest : List Bytes} (more : rest ≠ [])
    (leads : Leads t last links here (ahead ++ rest) w) :
    ∃ middle left, Leads t true links here ahead (.found middle) ∧
      Leads t last left middle rest w := by
  generalize whole : ahead ++ rest = parts at leads
  induction leads generalizing ahead with
  | done => exact absurd (List.append_eq_nil_iff.1 whole).2 more
  | @dot links here parts goal inside leads ih =>
    rcases List.append_eq_cons_iff.1 whole with ⟨rfl, rfl⟩ | ⟨others, rfl, rfl⟩
    · exact ⟨here, links, .done, .dot inside leads⟩
    · obtain ⟨middle, left, first, second⟩ := ih rfl
      exact ⟨middle, left, .dot inside first, second⟩
  | @dotDot links here parts goal inside leads ih =>
    rcases List.append_eq_cons_iff.1 whole with ⟨rfl, rfl⟩ | ⟨others, rfl, rfl⟩
    · exact ⟨here, links, .done, .dotDot inside leads⟩
    · obtain ⟨middle, left, first, second⟩ := ih rfl
      exact ⟨middle, left, .dotDot inside first, second⟩
  | @vacant links here part inside name none =>
    rcases List.append_eq_cons_iff.1 whole with ⟨rfl, rfl⟩ | ⟨others, rfl, ends⟩
    · exact ⟨here, links, .done, .vacant inside name none⟩
    · exact absurd (List.append_eq_nil_iff.1 ends.symm).2 more
  | @lastLink links here part target inside name link stop =>
    rcases List.append_eq_cons_iff.1 whole with ⟨rfl, rfl⟩ | ⟨others, rfl, ends⟩
    · exact ⟨here, links, .done, .lastLink inside name link stop⟩
    · exact absurd (List.append_eq_nil_iff.1 ends.symm).2 more
  | @link links here part parts target goal inside name link go leads ih =>
    rcases List.append_eq_cons_iff.1 whole with ⟨rfl, rfl⟩ | ⟨others, rfl, rfl⟩
    · exact ⟨here, links + 1, .done, .link inside name link go leads⟩
    · -- the target's parts are taken first, so they belong to what is ahead
      obtain ⟨middle, left, first, second⟩ := ih (List.append_assoc (steps target) others rest)
      exact ⟨middle, left, .link inside name link (fun _ => rfl) first, second⟩
  | @entry links here part parts node goal inside name stands plain leads ih =>
    rcases List.append_eq_cons_iff.1 whole with ⟨rfl, rfl⟩ | ⟨others, rfl, rfl⟩
    · exact ⟨here, links, .done, .entry inside name stands plain leads⟩
    · obtain ⟨middle, left, first, second⟩ := ih rfl
      exact ⟨middle, left, .entry inside name stands plain first, second⟩

end

end RoutineWatch.FileTree
