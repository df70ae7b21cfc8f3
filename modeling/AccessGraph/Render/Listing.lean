import AccessGraph.Json.Direct
import AccessGraph.Json.Enumeration
import AccessGraph.Json.Printer
import AccessGraph.Table.Basic
/-!
# The listing of a table

A graph as one record for each node, for programs that read JSON.

* `Listing` : the number of the root, the number of nodes, and the nodes, `Listing.Node`.
* `Listing.ofTable`, `Listing.toTable` : the nodes of a table, and the rows of a listing.
* `Listing.toJson` : a listing as JSON.
* `Listing.ofJson` : a listing out of a text. It is decoded while the text is read, so that the first
  problem of the text is the one that is reported.
-/

namespace AccessGraph

open Json

/-- A node of a listing. -/
structure Listing.Node where
  /-- Its number. -/
  id : Nat
  /-- Its label. -/
  label : String
  /-- The numbers of its children in order. -/
  children : List Nat
  /-- The kinds of the edges to its children in order. -/
  edges : List EdgeKind
  deriving DecidableEq, Repr

/-- A graph as one record for each node. -/
structure Listing where
  /-- The number of the root. -/
  rootId : Nat
  /-- The number of nodes. -/
  nodeCount : Nat
  /-- The nodes. -/
  nodes : List Listing.Node
  deriving DecidableEq, Repr

namespace Listing

/-- The names of the edge kinds. -/
def kindNames : List (String × EdgeKind) := [(EdgeKind.structural.name, .structural)]

/-! ### Tables -/

/-- The listing of a table. Its nodes end with the shortest of the three lists, while the number of
nodes is that of the labels. -/
def ofTable (t : Table) : Listing where
  rootId := t.rootId
  nodeCount := t.count
  nodes := ((t.labels.zip t.children).zip t.edges).zipIdx.map
    fun (((label, children), edges), id) => ⟨id, label, children, edges⟩

/-- The table with the rows of a listing. -/
def toTable (l : Listing) : Table where
  rootId := l.rootId
  children := l.nodes.map (·.children)
  edges := l.nodes.map (·.edges)
  labels := l.nodes.map (·.label)

/-! ### Writing -/

/-- A natural number as JSON. -/
def natural (n : Nat) : Value := .number (.int n)

/-- A node as JSON. -/
def Node.toJson (n : Node) : Value :=
  .object [("id", natural n.id), ("label", .string n.label),
    ("children", .array (n.children.map natural)),
    ("edges", .array (n.edges.map fun kind => .string kind.name))]

/-- A listing as JSON. -/
def toJson (l : Listing) : Value :=
  .object [("root_id", natural l.rootId), ("node_count", natural l.nodeCount),
    ("nodes", .array (l.nodes.map Node.toJson))]

/-! ### Reading -/

/-- What the parts of a node are. -/
inductive Node.Part where
  | natural
  | text
  | naturals
  | kinds
  deriving DecidableEq, Repr

/-- The type of the parts of some shape. -/
@[reducible] def Node.Part.Carrier : Node.Part → Type
  | natural => Nat
  | text => String
  | naturals => List Nat
  | kinds => List EdgeKind

/-- The fields of a node, all of which have to be present. -/
def Node.fields : List (Field Node.Part.Carrier) :=
  [⟨"id", .natural, none⟩, ⟨"label", .text, none⟩, ⟨"children", .naturals, none⟩,
    ⟨"edges", .kinds, none⟩]

/-- Read a part of a node. -/
def Node.readPart (fuel : Nat) : (p : Node.Part) → List Char → Except Fault (p.Carrier × List Char)
  | .natural => readNatural
  | .text => readLabel
  | .naturals => readArray readNatural fuel
  | .kinds => readArray (Enumeration.read kindNames) fuel

/-- Read a node. -/
def Node.read (fuel : Nat) (cs : List Char) : Except Fault (Node × List Char) := do
  let ((id, label, children, edges, ()), rest) ←
    readRecord (Node.readPart fuel) "struct NodeDto" Node.fields fuel cs
  .ok (⟨id, label, children, edges⟩, rest)

/-- What the parts of a listing are. -/
inductive Part where
  | natural
  | nodes
  deriving DecidableEq, Repr

/-- The type of the parts of some shape. -/
@[reducible] def Part.Carrier : Part → Type
  | natural => Nat
  | nodes => List Node

/-- The fields of a listing, all of which have to be present. -/
def fields : List (Field Part.Carrier) :=
  [⟨"root_id", .natural, none⟩, ⟨"node_count", .natural, none⟩, ⟨"nodes", .nodes, none⟩]

/-- Read a part of a listing. -/
def readPart (fuel : Nat) : (p : Part) → List Char → Except Fault (p.Carrier × List Char)
  | .natural => readNatural
  | .nodes => readArray (Node.read fuel) fuel

/-- Read a listing. -/
def read (fuel : Nat) (cs : List Char) : Except Fault (Listing × List Char) := do
  let ((rootId, nodeCount, nodes, ()), rest) ←
    readRecord (readPart fuel) "struct GraphDto" fields fuel cs
  .ok (⟨rootId, nodeCount, nodes⟩, rest)

/-- The listing that a text stands for. -/
def ofJson (text : String) : Except Fault Listing := readText read text

end Listing

end AccessGraph
