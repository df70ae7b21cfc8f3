import AccessGraph.Table.Basic
/-!
# The drawing of a table

A table as a graph in the DOT language: one line for each node and one for each edge.

* `Dot.escape` : a label between the quotes of DOT, by three replacements in a text.
* `Dot.escapeChar` : what becomes of one character.
* `Table.dot` : the whole drawing.

Backslashes are replaced first, so that those that the other two replacements bring in stay single.
-/

namespace AccessGraph

namespace Dot

/-- Replace a character everywhere in a text. -/
def replace (c : Char) (new : List Char) (text : List Char) : List Char :=
  text.flatMap fun d => if d = c then new else [d]

/-- A label as it stands between quotes. -/
def escape (label : String) : String :=
  String.ofList
    (replace '\n' ['\\', 'n'] (replace '"' ['\\', '"'] (replace '\\' ['\\', '\\'] label.toList)))

/-- What becomes of one character between quotes. -/
def escapeChar (c : Char) : List Char :=
  if c = '\\' then ['\\', '\\']
  else if c = '"' then ['\\', '"']
  else if c = '\n' then ['\\', 'n']
  else [c]

/-- The shape of a node: a double circle for the root, a hexagon for a loop, an ellipse for a node
without children, a box for any other. -/
def shape (t : Table) (id : Nat) (label : String) : String :=
  if id = t.rootId then "doublecircle"
  else if label = Tree.loopLabel then "hexagon"
  else if (t.children[id]?.getD []).isEmpty then "ellipse"
  else "box"

/-- The line of a node. -/
def nodeLine (t : Table) (id : Nat) (label : String) : String :=
  "    n" ++ toString id ++ " [label=\"" ++ escape label ++ "\", shape=" ++ shape t id label ++ "];"

/-- The line of an edge. -/
def edgeLine (parent child : Nat) (kind : EdgeKind) : String :=
  "    n" ++ toString parent ++ " -> n" ++ toString child ++ " [label=\"" ++ kind.name ++ "\"];"

/-- The lines of all edges, row by row. A child without an edge kind has no line. -/
def edgeLines (t : Table) : List String :=
  (t.children.zip t.edges).zipIdx.flatMap fun ((ids, kinds), parent) =>
    (ids.zip kinds).map fun (child, kind) => edgeLine parent child kind

/-- The lines before those of the nodes. -/
def opening : List String :=
  ["digraph FeatureGraph \x7b",
    "    rankdir=TB;",
    "    node [fontname=\"Helvetica\", fontsize=12, shape=box];",
    "    edge [fontname=\"Helvetica\", fontsize=10];",
    ""]

end Dot

/-- The drawing of a table. -/
def Table.dot (t : Table) : String :=
  "\n".intercalate (Dot.opening ++
    (t.labels.zipIdx.map fun (label, id) => Dot.nodeLine t id label) ++
    "" :: Dot.edgeLines t ++
    ["\x7d"])

end AccessGraph
