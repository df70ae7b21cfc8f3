import AccessGraph.Tree
/-!
# Graphs as tables

* `Table` : a graph as three parallel lists, in which row `i` describes the node of number `i`.
* `Defect` : what can be wrong with a table, and its message.
* `Table.check` : accepts the tables whose rows belong together and whose numbers all name a node.

A table may hold anything; only `check` tells the well-formed ones apart.
-/

namespace AccessGraph

/-- A graph as three parallel lists. -/
structure Table where
  /-- The number of the root. -/
  rootId : Nat
  /-- For each node, the numbers of its children in order. -/
  children : List (List Nat)
  /-- For each node, the kinds of the edges to its children in order. -/
  edges : List (List EdgeKind)
  /-- For each node, its label. -/
  labels : List String
  deriving DecidableEq, Repr

/-- What can be wrong with a table. -/
inductive Defect where
  /-- A row has as many children as stated but another number of edge kinds; a row beyond the last
  label stands for the numbers of rows themselves. -/
  | misaligned (row children edges : Nat)
  /-- The number of the root names no node. -/
  | danglingRoot (id count : Nat)
  /-- The number of a child names no node. -/
  | danglingChild (id count : Nat)
  /-- A number does not fit into a word. -/
  | overflow (what : String) (value : Nat)
  deriving DecidableEq, Repr

namespace Defect

/-- What a defect is reported as. -/
def message : Defect → String
  | .misaligned row children edges =>
    "misaligned row " ++ toString row ++ ": " ++ toString children ++ " children but " ++
      toString edges ++ " edge kinds"
  | .danglingRoot id count =>
    "dangling root id " ++ toString id ++ ": tables hold only " ++ toString count ++ " node(s)"
  | .danglingChild id count =>
    "dangling child id " ++ toString id ++ ": tables hold only " ++ toString count ++ " node(s)"
  | .overflow what value =>
    "buffer overflow: " ++ what ++ " (" ++ toString value ++ ") exceeds i32 range"

end Defect

namespace Table

/-- The number of nodes. -/
def count (t : Table) : Nat := t.labels.length

/-- The first row, counted from `row`, that has more or fewer edge kinds than children. -/
def misaligned? (row : Nat) : List (List Nat) → List (List EdgeKind) → Option Defect
  | ids :: children, kinds :: edges =>
    if ids.length ≠ kinds.length then some (.misaligned row ids.length kinds.length)
    else misaligned? (row + 1) children edges
  | _, _ => none

/-- The first child, row by row, that is not below `count`. -/
def danglingChild? (count : Nat) (children : List (List Nat)) : Option Nat :=
  children.flatten.find? (count ≤ ·)

/-- The first defect of a table: a row whose children and edge kinds differ in number, then
differing numbers of rows, then the root, then the children. -/
def check (t : Table) : Except Defect Unit :=
  match misaligned? 0 t.children t.edges with
  | some defect => .error defect
  | none =>
    if t.children.length ≠ t.count ∨ t.edges.length ≠ t.count then
      .error (.misaligned t.count t.children.length t.edges.length)
    else if t.count ≤ t.rootId then .error (.danglingRoot t.rootId t.count)
    else
      match danglingChild? t.count t.children with
      | some id => .error (.danglingChild id t.count)
      | none => .ok ()

end Table

end AccessGraph
