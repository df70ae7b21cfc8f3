import AccessGraph.Buffer.Write
/-!
# Reading a buffer

`Table.decode?` reads a buffer back: the header says where each section begins, a section is read
from there on, and it has to end where the next one begins; the last one has to end with the buffer.

* `Section.lengths?` : the lengths of the rows of a section.
* `Section.rows?` : the rows of given lengths.
-/

namespace AccessGraph

namespace Section

/-- Take the lengths of `count` rows off the front of a buffer. -/
def lengths? (count : Nat) (buffer : List UInt8) : Option (List Nat × List UInt8) := do
  let (ws, buffer) ← Word.readMany? count buffer
  let lengths ← ws.mapM Word.toNat?
  some (lengths, buffer)

/-- Take rows of given lengths off the front of a buffer. -/
def rows? {α : Type} (row? : Nat → List UInt8 → Option (α × List UInt8)) :
    (lengths : List Nat) → List UInt8 → Option (List α × List UInt8)
  | [], buffer => some ([], buffer)
  | length :: lengths, buffer => do
    let (row, buffer) ← row? length buffer
    let (rows, buffer) ← rows? row? lengths buffer
    some (row :: rows, buffer)

/-- Take a whole section of `count` rows off the front of a buffer. -/
def read? {α : Type} (row? : Nat → List UInt8 → Option (α × List UInt8)) (count : Nat)
    (buffer : List UInt8) : Option (List α × List UInt8) := do
  let (lengths, buffer) ← lengths? count buffer
  rows? row? lengths buffer

/-- A row of numbers. -/
def ids? (length : Nat) (buffer : List UInt8) : Option (List Nat × List UInt8) := do
  let (ws, buffer) ← Word.readMany? length buffer
  let ids ← ws.mapM Word.toNat?
  some (ids, buffer)

/-- The edge kind of a word. -/
def kind? (w : Int32) : Option EdgeKind :=
  if w = EdgeKind.structural.tag then some .structural else none

/-- A row of edge kinds. -/
def kinds? (length : Nat) (buffer : List UInt8) : Option (List EdgeKind × List UInt8) := do
  let (ws, buffer) ← Word.readMany? length buffer
  let kinds ← ws.mapM kind?
  some (kinds, buffer)

/-- A label of `length` bytes. -/
def label? (length : Nat) (buffer : List UInt8) : Option (String × List UInt8) := do
  guard (length ≤ buffer.length)
  let label ← String.fromUTF8? ⟨(buffer.take length).toArray⟩
  some (label, buffer.drop length)

end Section

/-- The table that a buffer holds. -/
def Table.decode? (buffer : List UInt8) : Option Table := do
  let (header, _) ← Word.readMany? 5 buffer
  let fields ← header.mapM Word.toNat?
  let [rootId, count, childrenStart, edgesStart, labelsStart] := fields | none
  let (children, rest) ← Section.read? Section.ids? count (buffer.drop childrenStart)
  guard (edgesStart + rest.length = buffer.length)
  let (edges, rest) ← Section.read? Section.kinds? count (buffer.drop edgesStart)
  guard (labelsStart + rest.length = buffer.length)
  let (labels, rest) ← Section.read? Section.label? count (buffer.drop labelsStart)
  guard rest.isEmpty
  some { rootId, children, edges, labels }

end AccessGraph
