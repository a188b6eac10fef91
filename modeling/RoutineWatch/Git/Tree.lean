import RoutineWatch.Path

/-!
# The tree of a commit

A tree holds entries by name, in order; an entry is a leaf (a file, a link or the commit of
a submodule) or another tree.

- `Tree.isWellFormed`: what every tree is like that a repository stores.
- `Tree.walk`: the leaves of all depths with their paths, in the order in which they are
  visited.

Names are raw bytes and need not be UTF-8. Entries are sorted by name, but the name of a
tree counts as if a slash ended it, so `a.rs` stands before the tree `a` and `a0` after it.
A leaf carries the object that its entry names, not the object's id: equal ids are taken for
equal objects, and the id of no object, which no entry is stored with, does not come up.
-/
namespace RoutineWatch

/-- What a leaf of a tree is. -/
inductive LeafKind where
  | regular
  | executable
  | symlink
  | submodule
deriving DecidableEq, Repr

/-- The kind of a leaf, whether it can be executed aside. -/
def LeafKind.type : LeafKind → LeafKind
  | .executable => .regular
  | kind => kind

/-- A leaf: its kind, and its contents, target or commit. -/
structure Leaf where
  kind : LeafKind
  contents : Bytes
deriving DecidableEq, Repr

/-- A tree, by its first entry and the others. -/
inductive Tree where
  | empty
  | leaf (name : Bytes) (value : Leaf) (rest : Tree)
  | directory (name : Bytes) (inside rest : Tree)
deriving DecidableEq, Repr

namespace Tree

/-- The names of the entries. -/
def names : Tree → List Bytes
  | empty => []
  | leaf name _ rest => name :: rest.names
  | directory name _ rest => name :: rest.names

/-- What the entries are sorted by. -/
def keys : Tree → List Bytes
  | empty => []
  | leaf name _ rest => name :: rest.keys
  | directory name _ rest => (name ++ [slash]) :: rest.keys

/-- Whether an entry can have this name. -/
def isName (name : Bytes) : Bool := !name.isEmpty && !name.contains slash && !name.contains 0

/-- Whether an entry of this name and this key can stand ahead of others. -/
def leads (name key : Bytes) (rest : Tree) : Bool :=
  isName name && !rest.names.contains name && rest.keys.all (bytesLess key)

/-- Whether names are proper and different and all entries are in order, at any depth. -/
def isWellFormed : Tree → Bool
  | empty => true
  | leaf name _ rest => leads name name rest && rest.isWellFormed
  | directory name inside rest =>
    leads name (name ++ [slash]) rest && inside.isWellFormed && rest.isWellFormed

/-- The leaves below a path, each with its own path. -/
def walk (above : Bytes) : Tree → List (Bytes × Leaf)
  | empty => []
  | leaf name value rest => (above ++ name, value) :: rest.walk above
  | directory name inside rest =>
    inside.walk (above ++ name ++ [slash]) ++ rest.walk above

end Tree

end RoutineWatch
