import AccessGraph.Buffer.Layout
/-!
# The outline of a table

A text for readers: the layout of the buffer, the rows of children, the labels, and the tree below
the root with one space of indentation for each level.

* `Outline.unfolding` : the lines of the tree, by recursion on the number of levels.
* `Outline.treeLines` : the same lines, with the nodes still to visit in a list.
* `Table.outline` : the whole text.

A number without a label is left out together with all below it. No path of distinct labelled nodes
has more levels than there are labels, so both ways of listing stop there: a node on a deeper level
would lie below itself.
-/

namespace AccessGraph

namespace Outline

/-- The children of a node, none if there is no such row. -/
def row (t : Table) (id : Nat) : List Nat := t.children[id]?.getD []

/-- The line of a node on some level. -/
def line (depth : Nat) (label : String) : String :=
  String.ofList (List.replicate depth ' ') ++ label

/-- The lines of a node and of those below it, down to a number of levels. -/
def unfolding (t : Table) : (levels depth id : Nat) → List String
  | 0, _, _ => []
  | levels + 1, depth, id =>
    match t.labels[id]? with
    | none => []
    | some label =>
      line depth label :: (row t id).flatMap fun child => unfolding t levels (depth + 1) child

/-- A node to visit, and the level it is on. -/
structure Visit where
  /-- The number of the node. -/
  id : Nat
  /-- Its level, zero for the root. -/
  depth : Nat

/-- The length of the longest row. -/
def widest (t : Table) : Nat := (t.children.map List.length).foldr max 0

/-- A bound on the visits that a visit on some level can lead to. -/
def weight (t : Table) (depth : Nat) : Nat := Nat.pow (widest t + 1) (t.count + 1 - depth)

theorem length_row_le (t : Table) (id : Nat) : (row t id).length ≤ widest t := by
  have bound (rows : List (List Nat)) (id : Nat) :
      (rows[id]?.getD []).length ≤ (rows.map List.length).foldr max 0 := by
    induction rows generalizing id with
    | nil => simp
    | cons ids rows ih =>
      cases id with
      | zero => exact Nat.le_max_left _ _
      | succ id => exact Nat.le_trans (ih id) (Nat.le_max_right _ _)
  exact bound t.children id

theorem weight_pos (t : Table) (depth : Nat) : 0 < weight t depth := Nat.pow_pos (by omega)

theorem weight_children_lt (t : Table) {depth : Nat} (h : depth < t.count) (id : Nat) :
    (row t id).length * weight t (depth + 1) < weight t depth := by
  have hstep : weight t depth = (widest t + 1) * weight t (depth + 1) := by
    rw [weight, weight, show t.count + 1 - depth = t.count + 1 - (depth + 1) + 1 by omega]
    exact Nat.mul_comm _ _
  rw [hstep]
  have := length_row_le t id
  exact Nat.mul_lt_mul_of_pos_right (by omega) (weight_pos t _)

/-- A bound on the visits that several visits can lead to. -/
def weightOf (t : Table) : List Visit → Nat
  | [] => 0
  | v :: vs => weight t v.depth + weightOf t vs

theorem weightOf_append (t : Table) (vs ws : List Visit) :
    weightOf t (vs ++ ws) = weightOf t vs + weightOf t ws := by
  induction vs with
  | nil => simp [weightOf]
  | cons v vs ih => simp [weightOf, ih, Nat.add_assoc]

theorem weightOf_map (t : Table) (ids : List Nat) (depth : Nat) :
    weightOf t (ids.map (⟨·, depth⟩)) = ids.length * weight t depth := by
  induction ids with
  | nil => simp [weightOf]
  | cons id ids ih => simp [weightOf, ih, Nat.succ_mul, Nat.add_comm]

/-- List what is still to visit, after the lines listed so far, which are given last one first. -/
def visit (t : Table) (lines : List String) : List Visit → List String
  | [] => lines.reverse
  | v :: pending =>
    match t.labels[v.id]? with
    | none => visit t lines pending
    | some label =>
      if v.depth < t.count then
        visit t (line v.depth label :: lines) ((row t v.id).map (⟨·, v.depth + 1⟩) ++ pending)
      else visit t lines pending
termination_by pending => weightOf t pending
decreasing_by
  · have := weight_pos t v.depth
    simp only [weightOf]
    omega
  · rename_i h
    have := weight_children_lt t h v.id
    simp only [weightOf_append, weightOf_map, weightOf]
    omega
  · have := weight_pos t v.depth
    simp only [weightOf]
    omega

/-- The lines of the tree below a node. -/
def treeLines (t : Table) (root : Nat) : List String := visit t [] [⟨root, 0⟩]

/-- The lines of the layout. -/
def layoutLines (layout : Layout) : List String :=
  [("root_id", layout.rootId), ("node_count", layout.nodeCount),
    ("offset_children", layout.offsetChildren), ("offset_edges", layout.offsetEdges),
    ("offset_labels", layout.offsetLabels), ("total_size", layout.totalSize)].map
    fun (name, value) => name ++ ": " ++ toString value.toInt

/-- The lines of the rows of children. -/
def childrenLines (t : Table) : List String :=
  t.children.zipIdx.map fun (ids, id) =>
    "  " ++ toString id ++ ": [" ++ ", ".intercalate (ids.map toString) ++ "]"

/-- The lines of the labels. -/
def labelLines (t : Table) : List String :=
  t.labels.zipIdx.map fun (label, id) => "  " ++ toString id ++ ": " ++ label

end Outline

/-- The outline of a table under a layout. Each line ends with a newline. -/
def Table.outline (t : Table) (layout : Layout) : String :=
  let lines := Outline.layoutLines layout ++
    "children:" :: Outline.childrenLines t ++
    "labels:" :: Outline.labelLines t ++
    "tree:" :: Outline.treeLines t t.rootId
  "\n".intercalate lines ++ "\n"

end AccessGraph
