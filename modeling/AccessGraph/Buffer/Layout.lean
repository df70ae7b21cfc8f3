import AccessGraph.Table.Basic
/-!
# The layout of a buffer

A buffer starts with a header of five words. Three sections follow it, one for each list of a table:
a word for the length of each row, and then the contents of all rows.

* `Layout` : where the sections begin, and how long the buffer is.
* `Layout.ofTable` : the layout of the buffer of a table, or its first defect. All numbers have to
  fit into words.
-/

namespace AccessGraph

/-- Where the sections of a buffer begin, and how long it is. -/
structure Layout where
  /-- The number of the root. -/
  rootId : Int32
  /-- The number of nodes. -/
  nodeCount : Int32
  /-- Where the section of children begins. -/
  offsetChildren : Int32
  /-- Where the section of edge kinds begins. -/
  offsetEdges : Int32
  /-- Where the section of labels begins. -/
  offsetLabels : Int32
  /-- How many bytes the buffer has. -/
  totalSize : Int32
  deriving DecidableEq, Repr

namespace Layout

/-- Bytes in a word. -/
def wordSize : Nat := 4

/-- Bytes in the header. -/
def headerSize : Nat := 5 * wordSize

/-- A number as a word. -/
def fit (what : String) (value : Nat) : Except Defect Int32 :=
  if value < Int32.size / 2 then .ok (Int32.ofNat value) else .error (.overflow what value)

/-- Bytes of the section of children. -/
def childrenSize (t : Table) : Nat :=
  wordSize * t.count + wordSize * t.children.flatten.length

/-- Bytes of the section of edge kinds. -/
def edgesSize (t : Table) : Nat :=
  wordSize * t.count + wordSize * t.edges.flatten.length

/-- Bytes of the section of labels. -/
def labelsSize (t : Table) : Nat :=
  wordSize * t.count + (String.join t.labels).utf8ByteSize

/-- Where the section of edge kinds begins. -/
def edgesStart (t : Table) : Nat := headerSize + childrenSize t

/-- Where the section of labels begins. -/
def labelsStart (t : Table) : Nat := edgesStart t + edgesSize t

/-- Bytes of the whole buffer. -/
def size (t : Table) : Nat := labelsStart t + labelsSize t

/-- The layout of the buffer of a table, or its first defect. -/
def ofTable (t : Table) : Except Defect Layout := do
  t.check
  t.labels.forM fun label => discard (fit "label length" label.utf8ByteSize)
  let rootId ← fit "root id" t.rootId
  let nodeCount ← fit "node count" t.count
  let offsetChildren ← fit "offset_children" headerSize
  let offsetEdges ← fit "offset_edges" (edgesStart t)
  let offsetLabels ← fit "offset_labels" (labelsStart t)
  let totalSize ← fit "total size" (size t)
  return { rootId, nodeCount, offsetChildren, offsetEdges, offsetLabels, totalSize }

end Layout

end AccessGraph
