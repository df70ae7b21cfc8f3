import AccessGraph.Table.Basic
/-!
# Numbering the nodes of a tree

The nodes of a tree are numbered from zero on, each after its children and the children in order.

* `Numbering.Frame` : a node whose children are being numbered.
* `Numbering.go` : numbers what is still pending. The nodes around the current one wait in a list,
  so that the depth of a tree is not limited by the depth of recursion.
* `Table.ofTree` : the table of a tree.
-/

namespace AccessGraph

namespace Numbering

/-- What a table holds about one node. -/
structure Row where
  /-- The label. -/
  label : String
  /-- The kinds of the edges to the children. -/
  kinds : List EdgeKind
  /-- The numbers of the children. -/
  ids : List Nat

/-- A node whose children are being numbered. -/
structure Frame where
  /-- Its label. -/
  label : String
  /-- The kinds of the edges to all of its children. -/
  kinds : List EdgeKind
  /-- The children without a number. -/
  pending : List (EdgeKind × Tree)
  /-- The numbers of the others, the last one first. -/
  ids : List Nat

/-- The frame of a tree of which no child has a number. -/
def Frame.ofTree (t : Tree) : Frame := ⟨t.label, t.children.map (·.1), t.children, []⟩

/-- The row of a node whose children all have numbers. -/
def Frame.row (f : Frame) : Row := ⟨f.label, f.kinds, f.ids.reverse⟩

/-- How many nodes wait for a number below the nodes of some frames. -/
def waiting (frames : List Frame) : Nat := Tree.sizeList (frames.flatMap (·.pending))

/-- The rows of a tree, the last one first, and the number of its root. -/
structure Result where
  /-- One row for each node. -/
  rows : List Row
  /-- The number of the root. -/
  rootId : Nat

/-- Number the children of a frame, then the node itself, then go on with the frame around it. The
rows of the nodes numbered so far are given last one first, and `next` is the next number. -/
def go (rows : List Row) (next : Nat) (frame : Frame) (outer : List Frame) : Result :=
  match frame with
  | ⟨label, kinds, (_, t) :: pending, ids⟩ =>
    go rows next (.ofTree t) (⟨label, kinds, pending, ids⟩ :: outer)
  | ⟨label, kinds, [], ids⟩ =>
    let rows := Frame.row ⟨label, kinds, [], ids⟩ :: rows
    match outer with
    | [] => ⟨rows, next⟩
    | parent :: outer => go rows (next + 1) { parent with ids := next :: parent.ids } outer
termination_by (waiting (frame :: outer), outer.length)
decreasing_by
  · cases t
    simp [waiting, Frame.ofTree, Tree.sizeList, Tree.sizeList_append, Tree.size, Tree.children,
      Prod.lex_def]
  · simp [waiting, Prod.lex_def]

end Numbering

/-- The table of a tree: its nodes are numbered each after its children, so that the root is the
last one. -/
def Table.ofTree (t : Tree) : Table :=
  let result := Numbering.go [] 0 (.ofTree t) []
  let rows := result.rows.reverse
  { rootId := result.rootId
    children := rows.map (·.ids)
    edges := rows.map (·.kinds)
    labels := rows.map (·.label) }

end AccessGraph
