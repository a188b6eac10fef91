import RoutineWatch.Git.Repository

/-!
# Naming a commit

The name of a commit is that of a ref, in full or short, with steps to other objects behind
it. Of the refs that a short name can mean, tags come before branches. What does not lead to
a commit names none.

- `Revision.parse?`: the name and its steps, each `^`, `~` or `^` with a kind in braces.
- `Repository.revision?`: the commit that they lead to.

These are the forms that the refs of a workflow can have. Left out are ids and their first
digits, the names that describe a commit by a tag, entries of a reflog (`@` with braces), the
search for a message (`^` with a slash in braces, or a colon and a slash), paths in a tree or
in the index (behind a colon), and ranges; a text of these forms is looked up as the name of a
ref or has no meaning here.
-/
namespace RoutineWatch

inductive GitObject where
  | commit (id : String)
  | tree (id : String)
  | tag (id : String)
deriving DecidableEq, Repr

/-- A step from one object to the next. -/
inductive RevisionStep where
  /-- To the parent of this number, from one; zero stays at the commit. -/
  | parent (number : Nat)
  /-- So many first parents up. -/
  | generation (count : Nat)
  /-- To an object of the named kind; with no name, to whatever a tag is of. -/
  | peel (kind : String)
deriving DecidableEq, Repr

/-- The name of a commit. -/
structure Revision where
  name : String
  steps : List RevisionStep
deriving DecidableEq, Repr

namespace Revision

def isDigit (c : Char) : Bool := '0' ≤ c && c ≤ '9'

/-- A number, if one stands here. -/
def readNumber? (text : List Char) : Option Nat × List Char :=
  let ds := text.takeWhile isDigit
  if ds.isEmpty then (none, text)
  else (some (ds.foldl (fun n d => n * 10 + (d.toNat - 48)) 0), text.dropWhile isDigit)

/-- The number of tildes before another character, and the text from there. -/
def tildes : List Char → Nat × List Char
  | '~' :: rest =>
    let (n, rest) := tildes rest
    (n + 1, rest)
  | rest => (0, rest)

/-- How many generations a row of tildes and numbers tells. -/
def readGenerations : Nat → List Char → Nat × List Char
  | 0, text => (0, text)
  | fuel + 1, text =>
    let (n, rest) := tildes text
    if n = 0 then (0, text)
    else
      let (number, rest) := readNumber? rest
      let count := match number with
        | some k => n - 1 + k
        | none => n
      let (more, rest) := readGenerations fuel rest
      (count + more, rest)

/-- The steps after a name. -/
def readSteps : Nat → List Char → Option (List RevisionStep)
  | 0, _ => none
  | _ + 1, [] => some []
  | fuel + 1, '^' :: '\x7b' :: rest =>
    let kind := rest.takeWhile (· ≠ '\x7d')
    match rest.dropWhile (· ≠ '\x7d') with
    | _ :: rest => (readSteps fuel rest).map (.peel (String.ofList kind) :: ·)
    | [] => none
  | fuel + 1, '^' :: rest =>
    let (number, rest) := readNumber? rest
    (readSteps fuel rest).map (.parent (number.getD 1) :: ·)
  | fuel + 1, '~' :: rest =>
    let (count, rest) := readGenerations (rest.length + 2) ('~' :: rest)
    (readSteps fuel rest).map (.generation count :: ·)
  | _ + 1, _ => none

def parse? (text : String) : Option Revision :=
  let chars := text.toList
  let isName (c : Char) : Bool := c ≠ '^' && c ≠ '~'
  let name := chars.takeWhile isName
  (readSteps (chars.length + 1) (chars.dropWhile isName)).map fun steps =>
    ⟨String.ofList name, steps⟩

end Revision

namespace Repository

/-- The full names that a short one can mean, in order. -/
def candidates (name : String) : List String :=
  [name, "refs/" ++ name, "refs/tags/" ++ name, "refs/heads/" ++ name,
    "refs/remotes/" ++ name, "refs/remotes/" ++ name ++ "/HEAD"]

/-- The object a ref stands for, through at most `links` other refs. -/
def resolveRef? (r : Repository) : Nat → String → Option GitObject
  | 0, _ => none
  | links + 1, name =>
    match r.ref? name with
    | none => none
    | some (.commit id) => some (.commit id)
    | some (.tree id) => some (.tree id)
    | some (.tag id) => some (.tag id)
    | some (.symbolic target) => r.resolveRef? links target

/-- Through how many refs a symbolic one is followed. -/
def refDepth : Nat := 6

/-- The object that a name means. -/
def object? (r : Repository) (name : String) : Option GitObject :=
  if name = "" then none
  else (candidates name).findSome? (r.resolveRef? refDepth)

def commitOf? (r : Repository) : GitObject → Option Commit
  | .commit id => r.commit? id
  | .tag id => r.commit? id
  | .tree _ => none

/-- The ancestor so many first parents up. -/
def ancestor? (r : Repository) : Nat → Commit → Option Commit
  | 0, c => some c
  | n + 1, c => do
    let id ← c.parents.head?
    let parent ← r.commit? id
    r.ancestor? n parent

def step? (r : Repository) (o : GitObject) : RevisionStep → Option GitObject
  | .parent 0 => (r.commitOf? o).map fun c => .commit c.id
  | .parent (n + 1) => do
    let c ← r.commitOf? o
    let id ← c.parents[n]?
    let parent ← r.commit? id
    some (.commit parent.id)
  | .generation n => do
    let c ← r.commitOf? o
    let top ← r.ancestor? n c
    some (.commit top.id)
  | .peel kind =>
    match o with
    | .tag id =>
      if kind = "" || kind = "commit" then some (.commit id)
      else if kind = "tree" then some (.tree id)
      else if kind = "tag" then some o
      else none
    | .commit id =>
      if kind = "" || kind = "commit" then some o
      else if kind = "tree" then some (.tree id)
      else none
    | .tree _ => if kind = "" || kind = "tree" then some o else none

/-- The commit that a revision names. -/
def revision? (r : Repository) (text : String) : Option Commit := do
  let revision ← Revision.parse? text
  let start ← r.object? revision.name
  let last ← revision.steps.foldlM r.step? start
  r.commitOf? last

end Repository

end RoutineWatch
