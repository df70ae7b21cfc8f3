import AccessGraph.Assembly.Basic
/-!
# Reading the tree out of a store

The tree below a node is moved out of the store: a slot is emptied when its node is taken, and the
nodes whose children are still being taken wait in a list of frames.

* `Readout.Frame` : a node taken out of the store, with the links still to follow.
* `Readout.go` : takes what is still linked. It ends on every store, because each link is followed at
  most once.
* `Assembly.tree` : the tree below the root.
* `Assembly.finish` : the tree, or the violation of the nesting that stands in its way.
-/

namespace AccessGraph

/-- What has been read out of a store. -/
structure Readout where
  /-- The tree. -/
  tree : Tree
  /-- The slots that were emptied, the last one first. -/
  taken : List Nat

namespace Readout

/-- A node taken out of the store. -/
structure Frame where
  /-- The kind of the edge that leads to the node. -/
  kind : EdgeKind
  /-- Its label. -/
  label : String
  /-- The links still to follow. -/
  links : List (EdgeKind × Nat)
  /-- The children read so far, the last one first. -/
  children : List (EdgeKind × Tree)

/-- The frame of a node of which nothing has been followed yet. -/
def Frame.ofCell (kind : EdgeKind) (c : Cell) : Frame := ⟨kind, c.label, c.links.toList, []⟩

/-- The node in a slot; a slot beyond the end is empty. -/
def cellAt (cells : Array Cell) (slot : Nat) : Cell := cells[slot]?.getD .empty

/-- The store with a slot emptied. -/
def emptied (cells : Array Cell) (slot : Nat) : Array Cell := cells.setIfInBounds slot .empty

/-- How many links a store holds. -/
def linkCount (cells : Array Cell) : Nat := (cells.toList.flatMap (·.links.toList)).length

/-- How many links wait to be followed. -/
def waiting (frames : List Frame) : Nat := (frames.flatMap (·.links)).length

theorem linkCount_emptied (cells : Array Cell) (slot : Nat) :
    linkCount (emptied cells slot) + (cellAt cells slot).links.size = linkCount cells := by
  obtain ⟨l⟩ := cells
  simp only [linkCount, emptied, cellAt, List.setIfInBounds_toArray, List.getElem?_toArray]
  induction l generalizing slot with
  | nil => simp [Cell.empty]
  | cons c l ih =>
    cases slot with
    | zero => simp [Cell.empty, Nat.add_comm]
    | succ slot => simpa [Nat.add_assoc] using ih slot

/-- Follow the links of a frame, then give its tree to the frame around it. -/
def go (cells : Array Cell) (taken : List Nat) (frame : Frame) (outer : List Frame) : Readout :=
  match frame with
  | ⟨kind, label, [], children⟩ =>
    let tree := Tree.node label children.reverse
    match outer with
    | [] => ⟨tree, taken⟩
    | next :: outer => go cells taken { next with children := (kind, tree) :: next.children } outer
  | ⟨kind, label, (edge, slot) :: links, children⟩ =>
    let cell := cellAt cells slot
    go (emptied cells slot) (slot :: taken) (.ofCell edge cell)
      (⟨kind, label, links, children⟩ :: outer)
termination_by (linkCount cells + waiting (frame :: outer), outer.length)
decreasing_by
  · simp [waiting, Prod.lex_def]
  · have := linkCount_emptied cells slot
    simp [waiting, Frame.ofCell, Prod.lex_def]
    omega

/-- The tree below a slot. -/
def ofSlot (cells : Array Cell) (slot : Nat) : Readout :=
  let cell := cellAt cells slot
  go (emptied cells slot) [slot] (.ofCell .structural cell) []

end Readout

namespace Assembly

/-- The tree below the root. Without any event the root has no label. -/
def tree (s : Assembly) : Tree :=
  let root := (Readout.ofSlot s.cells 0).tree
  if s.events = 0 then .node "" root.children else root

/-- The tree that is left when all scopes are closed. -/
def finish (s : Assembly) : Except Violation Tree :=
  match s.violation with
  | some violation => .error violation
  | none => if s.scopes.length = 1 then .ok s.tree else .error (.unterminated s.depth)

/-- The tree of a sequence of events. -/
def ofEvents (events : List Event) : Except Violation Tree := (start.run events).finish

end Assembly

end AccessGraph
