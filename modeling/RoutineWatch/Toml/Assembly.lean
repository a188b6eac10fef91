import RoutineWatch.Toml.Reader

/-!
# TOML documents

What the sections of a TOML document build together. A table is made once: by its
header, by dotted keys, or on the way to another table's header. Only a table of the
last kind may still get a header of its own, and then it moves to the end; only tables
made by dotted keys may be added to by dotted keys.

- `Toml.parse`: the entries of a document.
-/
namespace RoutineWatch.Toml

/-- How a table came about. -/
inductive Origin where
  /-- By its own header. -/
  | header
  /-- On the way to another table's header. -/
  | implied
  /-- By a dotted key. -/
  | dotted
deriving DecidableEq, Repr

/-- A value under construction. -/
inductive Node where
  | value (value : Toml)
  | table (origin : Origin) (entries : List (String × Node))
  | tables (elements : List (List (String × Node)))

/-- Entries of a table under construction. -/
abbrev Nodes := List (String × Node)

namespace Nodes

def get? (nodes : Nodes) (key : String) : Option Node :=
  (nodes.find? fun e => e.1 = key).map (·.2)

def set (nodes : Nodes) (key : String) (node : Node) : Nodes :=
  nodes.map fun e => if e.1 = key then (key, node) else e

def erase (nodes : Nodes) (key : String) : Nodes := nodes.filter fun e => e.1 ≠ key

end Nodes

/-- Changes the table that a path leads to. Tables on the way that are missing are
implied; of an array of tables the last one counts. -/
def atPath (change : Nodes → Option Nodes) (nodes : Nodes) : List String → Option Nodes
  | [] => change nodes
  | key :: keys =>
    match nodes.get? key with
    | none => do
      let inner ← atPath change [] keys
      some (nodes ++ [(key, .table .implied inner)])
    | some (.table origin inner) => do
      let inner ← atPath change inner keys
      some (nodes.set key (.table origin inner))
    | some (.tables elements) =>
      match elements.reverse with
      | [] => none
      | last :: before => do
        let last ← atPath change last keys
        some (nodes.set key (.tables ((last :: before).reverse)))
    | some (.value _) => none

/-- Adds an entry below a dotted key. -/
def addEntry (nodes : Nodes) : List String → Toml → Option Nodes
  | [], _ => none
  | [key], v =>
    match nodes.get? key with
    | some _ => none
    | none => some (nodes ++ [(key, .value v)])
  | [key, last], v =>
    match nodes.get? key with
    | none => some (nodes ++ [(key, .table .dotted [(last, .value v)])])
    | some (.table .dotted inner) =>
      match Nodes.get? inner last with
      | some _ => none
      | none => some (nodes.set key (.table .dotted (inner ++ [(last, .value v)])))
    | some _ => none
  | key :: key' :: key'' :: keys, v =>
    match nodes.get? key with
    | none => do
      let inner ← addEntry [] (key' :: key'' :: keys) v
      some (nodes ++ [(key, .table .dotted inner)])
    | some (.table .header _) => none
    | some (.table origin inner) => do
      let inner ← addEntry inner (key' :: key'' :: keys) v
      some (nodes.set key (.table origin inner))
    | some (.tables elements) =>
      match elements.reverse with
      | [] => none
      | last :: before => do
        let last ← addEntry last (key' :: key'' :: keys) v
        some (nodes.set key (.tables ((last :: before).reverse)))
    | some (.value _) => none

def addEntries (nodes : Nodes) (entries : List Entry) : Option Nodes :=
  entries.foldlM (fun nodes e => addEntry nodes e.1 e.2) nodes

/-- A table with a header of its own, at the end of the table around it. -/
def addTable (key : String) (entries : List Entry) (nodes : Nodes) : Option Nodes :=
  match nodes.get? key with
  | none => do some (nodes ++ [(key, .table .header (← addEntries [] entries))])
  | some (.table .implied inner) => do
    some (nodes.erase key ++ [(key, .table .header (← addEntries inner entries))])
  | some _ => none

def addElement (key : String) (entries : List Entry) (nodes : Nodes) : Option Nodes :=
  match nodes.get? key with
  | none => do some (nodes ++ [(key, .tables [← addEntries [] entries])])
  | some (.tables elements) => do
    some (nodes.set key (.tables (elements ++ [← addEntries [] entries])))
  | some _ => none

def addSection (nodes : Nodes) (part : Section) : Option Nodes :=
  match part.header with
  | .root => addEntries nodes part.entries
  | .table path =>
    match path.getLast? with
    | none => none
    | some key => atPath (addTable key part.entries) nodes path.dropLast
  | .element path =>
    match path.getLast? with
    | none => none
    | some key => atPath (addElement key part.entries) nodes path.dropLast

mutual

def Node.finish : Node → Toml
  | .value v => v
  | .table _ entries => .table (finishEntries entries)
  | .tables elements => .array (finishElements elements)

def finishEntries : List (String × Node) → List (String × Toml)
  | [] => []
  | (k, v) :: es => (k, v.finish) :: finishEntries es

def finishElements : List (List (String × Node)) → List Toml
  | [] => []
  | es :: rest => .table (finishEntries es) :: finishElements rest

end

/-- The entries of a document. -/
def parse (text : String) : Except Mismatch (List (String × Toml)) :=
  match readDocument text with
  | none => .error malformed
  | some sections =>
    match sections.foldlM addSection [] with
    | none => .error malformed
    | some nodes => .ok (finishEntries nodes)

end RoutineWatch.Toml
