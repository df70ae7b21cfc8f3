import AccessGraph.Buffer.Layout
import AccessGraph.Buffer.Word
/-!
# Writing a buffer

`Table.encode` writes the buffer of a table: the header, and then for each section the lengths of
the rows and their contents. Numbers are words, and labels are written in UTF-8.
-/

namespace AccessGraph

/-- The bytes of a text in UTF-8. -/
def utf8Bytes (text : String) : List UInt8 := text.toUTF8.data.toList

namespace Table

/-- The words of several numbers that need not fit. -/
def idBytes (ids : List Nat) : Except Defect (List UInt8) := do
  let words ← ids.mapM (Layout.fit "child id")
  return words.flatMap Word.bytes

/-- A length as the bytes of a word. -/
def lengthBytes (length : Nat) : List UInt8 := Word.bytes (Int32.ofNat length)

/-- The header of a buffer. -/
def headerBytes (layout : Layout) : List UInt8 :=
  [layout.rootId, layout.nodeCount, layout.offsetChildren, layout.offsetEdges,
    layout.offsetLabels].flatMap Word.bytes

/-- The buffer of a table, or its first defect. -/
def encode (t : Table) : Except Defect (List UInt8) := do
  let layout ← Layout.ofTable t
  let ids ← idBytes t.children.flatten
  return headerBytes layout ++
    (t.children.flatMap (lengthBytes ·.length) ++ ids) ++
    (t.edges.flatMap (lengthBytes ·.length) ++ t.edges.flatten.flatMap (Word.bytes ·.tag)) ++
    (t.labels.flatMap (lengthBytes ·.utf8ByteSize) ++ t.labels.flatMap utf8Bytes)

end Table

end AccessGraph
