import AccessGraph.Assembly.Readout
import AccessGraph.Buffer.Write
import AccessGraph.Render.Outline
import AccessGraph.Table.Numbering
/-!
# From a program to its graph

* `Stmt.tree?` : the tree of a program.
* `Extraction` : the table of the tree, the layout of its buffer, and the buffer.
* `Stmt.extract` : the extraction of a program.
* `Stmt.extractInto` : the same, with the outline written to a sink of limited room.
-/

namespace AccessGraph

/-- What can go wrong between a program and its buffer. -/
inductive Failure where
  /-- The scopes are not nested properly. -/
  | nesting (violation : Violation)
  /-- The table has no buffer. -/
  | table (defect : Defect)
  /-- The outline does not fit where it is to be written. -/
  | sinkFull
  deriving DecidableEq, Repr

/-- What a failure is reported as. -/
def Failure.message : Failure → String
  | .nesting violation => violation.message
  | .table defect => defect.message
  | .sinkFull => "IO error: failed to write whole buffer"

/-- The graph of a program, as a table and as a buffer. -/
structure Extraction where
  /-- The table of the graph. -/
  table : Table
  /-- The layout of the buffer. -/
  layout : Layout
  /-- The buffer. -/
  buffer : List UInt8
  deriving DecidableEq, Repr

namespace Extraction

/-- The outline of an extraction. -/
def outline (x : Extraction) : String := x.table.outline x.layout

/-- The extraction of a tree. -/
def ofTree (t : Tree) : Except Defect Extraction := do
  let table := Table.ofTree t
  let layout ← Layout.ofTable table
  let buffer ← table.encode
  .ok { table, layout, buffer }

end Extraction

namespace Stmt

/-- The tree of a program. -/
def tree? (s : Stmt) : Except Violation Tree := Assembly.ofEvents s.events

/-- The extraction of a program. -/
def extract (s : Stmt) : Except Failure Extraction := do
  let tree ← s.tree?.mapError .nesting
  (Extraction.ofTree tree).mapError .table

/-- The extraction of a program whose outline is written to a sink with room for `room` bytes, together
with what the sink holds in the end. -/
def extractInto (room : Nat) (s : Stmt) : List UInt8 × Except Failure Extraction :=
  match s.extract with
  | .error failure => ([], .error failure)
  | .ok x =>
    let text := utf8Bytes x.outline
    (text.take room, if text.length ≤ room then .ok x else .error .sinkFull)

end Stmt

end AccessGraph
