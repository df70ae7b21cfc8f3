import AccessGraph.Table.Numbering
import AccessGraph.Proofs.Table.WellFormed
/-!
# Rows in post-order

The numbers of the nodes of a subtree are consecutive, and the last one is that of its root. So the
rows of a tree can be described by recursion on the tree, from the first number on.

* `Numbering.rowsFrom`, `Numbering.rowsFromList` : the rows of a tree and of several trees.
* `Numbering.go_eq` : the numbering of what is pending, in terms of these rows.
* `Table.ofTree_eq` : **the table of a tree has the rows of the tree.**
* `Table.wellFormed_ofTree` : **the table of a tree is well-formed.**
* `Table.tree?` : the tree that the rows of a table describe, followed from the root on.
* `Table.tree?_ofTree` : **the rows of a tree describe the tree.**
-/

namespace AccessGraph

theorem Tree.size_eq (t : Tree) : t.size = 1 + Tree.sizeList t.children := by
  cases t
  rfl

theorem Tree.size_pos (t : Tree) : 0 < t.size := by
  rw [Tree.size_eq]
  omega

namespace Numbering

/-! ### The rows of a tree -/

/-- The numbers of the roots of several trees, if the first number is `first`. -/
def rootsFrom (first : Nat) : List (EdgeKind × Tree) → List Nat
  | [] => []
  | (_, t) :: ts => (first + t.size - 1) :: rootsFrom (first + t.size) ts

mutual

/-- The rows of a tree, if its first number is `first`. -/
def rowsFrom (first : Nat) : Tree → List Row
  | .node label children =>
    rowsFromList first children ++ [⟨label, children.map (·.1), rootsFrom first children⟩]

/-- The rows of several trees, if the first number is `first`. -/
def rowsFromList (first : Nat) : List (EdgeKind × Tree) → List Row
  | [] => []
  | (_, t) :: ts => rowsFrom first t ++ rowsFromList (first + t.size) ts

end

mutual

theorem length_rowsFrom (first : Nat) : ∀ t : Tree, (rowsFrom first t).length = t.size
  | .node label children => by
    rw [rowsFrom, List.length_append, length_rowsFromList first children, Tree.size]
    exact Nat.add_comm _ _

theorem length_rowsFromList (first : Nat) :
    ∀ ts : List (EdgeKind × Tree), (rowsFromList first ts).length = Tree.sizeList ts
  | [] => rfl
  | (_, t) :: ts => by
    rw [rowsFromList, List.length_append, length_rowsFrom first t,
      length_rowsFromList (first + t.size) ts, Tree.sizeList]

end

theorem length_rootsFrom (first : Nat) (ts : List (EdgeKind × Tree)) :
    (rootsFrom first ts).length = ts.length := by
  induction ts generalizing first with
  | nil => rfl
  | cons t ts ih => rw [rootsFrom, List.length_cons, ih, List.length_cons]

theorem lt_of_mem_rootsFrom {first id : Nat} {ts : List (EdgeKind × Tree)}
    (h : id ∈ rootsFrom first ts) : id < first + Tree.sizeList ts := by
  induction ts generalizing first with
  | nil => simp [rootsFrom] at h
  | cons t ts ih =>
    rw [rootsFrom, List.mem_cons] at h
    have hpos := t.2.size_pos
    rw [Tree.sizeList]
    rcases h with rfl | h
    · omega
    · have := ih h
      omega

/-- What a row says fits together: there is a kind for each child, and all children come before
`bound`. -/
def Row.Fits (bound : Nat) (row : Row) : Prop :=
  row.kinds.length = row.ids.length ∧ ∀ id ∈ row.ids, id < bound

theorem Row.Fits.mono {bound bound' : Nat} {row : Row} (h : row.Fits bound) (hle : bound ≤ bound') :
    row.Fits bound' :=
  ⟨h.1, fun id hid => Nat.lt_of_lt_of_le (h.2 id hid) hle⟩

mutual

theorem fits_rowsFrom (first : Nat) :
    ∀ t : Tree, ∀ row ∈ rowsFrom first t, row.Fits (first + t.size)
  | .node label children => by
    intro row hrow
    rw [rowsFrom, List.mem_append, List.mem_singleton] at hrow
    rw [Tree.size]
    rcases hrow with hrow | rfl
    · exact (fits_rowsFromList first children row hrow).mono (by omega)
    · refine ⟨?_, fun id hid => ?_⟩
      · rw [List.length_map, length_rootsFrom]
      · have := lt_of_mem_rootsFrom hid
        omega

theorem fits_rowsFromList (first : Nat) :
    ∀ ts : List (EdgeKind × Tree), ∀ row ∈ rowsFromList first ts,
      row.Fits (first + Tree.sizeList ts)
  | [] => nofun
  | (_, t) :: ts => by
    intro row hrow
    rw [rowsFromList, List.mem_append] at hrow
    rw [Tree.sizeList]
    rcases hrow with hrow | hrow
    · exact (fits_rowsFrom first t row hrow).mono (by omega)
    · exact (fits_rowsFromList (first + t.size) ts row hrow).mono (by omega)

end

/-! ### The numbering -/

/-- Go on with the frame around a node that has just been given its number. -/
def resume (rows : List Row) (number : Nat) : List Frame → Result
  | [] => ⟨rows, number⟩
  | parent :: outer => go rows (number + 1) { parent with ids := number :: parent.ids } outer

theorem go_nil (rows : List Row) (next : Nat) (label : String) (kinds : List EdgeKind)
    (ids : List Nat) (outer : List Frame) :
    go rows next ⟨label, kinds, [], ids⟩ outer =
      resume (⟨label, kinds, ids.reverse⟩ :: rows) next outer := by
  cases outer with
  | nil => rw [go, resume, Frame.row]
  | cons parent outer => rw [go, resume, Frame.row]

mutual

/-- The nodes of a tree get their numbers one after the other, the root the last one. -/
theorem go_ofTree (rows : List Row) (next : Nat) (parent : Frame) (outer : List Frame) :
    ∀ t : Tree, go rows next (.ofTree t) (parent :: outer) =
      go ((rowsFrom next t).reverse ++ rows) (next + t.size)
        { parent with ids := (next + t.size - 1) :: parent.ids } outer
  | .node label children => by
    -- the root is numbered last, and that resumes the frame around it
    rw [Frame.ofTree, Tree.label, Tree.children, go_eq, resume, rowsFrom, Tree.size]
    have hnumber : next + (1 + Tree.sizeList children) - 1 = next + Tree.sizeList children := by
      omega
    rw [hnumber, Nat.add_comm 1, ← Nat.add_assoc]
    simp

/-- **What is pending gets its numbers one after the other**, and then the node itself. -/
theorem go_eq (rows : List Row) (next : Nat) (label : String) (kinds : List EdgeKind)
    (ids : List Nat) (outer : List Frame) : ∀ pending : List (EdgeKind × Tree),
    go rows next ⟨label, kinds, pending, ids⟩ outer =
      resume (⟨label, kinds, ids.reverse ++ rootsFrom next pending⟩ ::
        ((rowsFromList next pending).reverse ++ rows)) (next + Tree.sizeList pending) outer
  | [] => by
    rw [go_nil, rootsFrom, List.append_nil]
    rfl
  | (_, t) :: pending => by
    rw [go, go_ofTree, go_eq _ _ _ _ _ _ pending]
    simp [rootsFrom, rowsFromList, Tree.sizeList, Nat.add_assoc]

end

end Numbering

namespace Table

open AccessGraph.Numbering (Row rowsFrom rowsFromList rootsFrom)

/-- The table of some rows. -/
def ofRows (rootId : Nat) (rows : List Row) : Table where
  rootId := rootId
  children := rows.map (·.ids)
  edges := rows.map (·.kinds)
  labels := rows.map (·.label)

/-- **The table of a tree has the rows of the tree**, and the root has the last number. -/
theorem ofTree_eq (t : Tree) : Table.ofTree t = ofRows (t.size - 1) (rowsFrom 0 t) := by
  obtain ⟨label, children⟩ := t
  have hgo := Numbering.go_eq [] 0 label (children.map (·.1)) [] [] children
  simp only [Table.ofTree, Numbering.Frame.ofTree, Tree.label, Tree.children, hgo,
    Numbering.resume, ofRows, rowsFrom, Tree.size]
  simp

/-- **The table of a tree is well-formed.** -/
theorem wellFormed_ofTree (t : Tree) : (Table.ofTree t).WellFormed := by
  have hfits := Numbering.fits_rowsFrom 0 t
  have hlength := Numbering.length_rowsFrom 0 t
  have hpos := t.size_pos
  rw [ofTree_eq]
  refine
    { aligned := ?_
      rows := ?_
      root := ?_
      ids := ?_ }
  · simp only [ofRows, List.map_map]
    exact List.map_congr_left fun row hrow => (hfits row hrow).1.symm
  · simp [ofRows, count]
  · simp only [ofRows, count, List.length_map, hlength]
    omega
  · intro id hid
    simp only [ofRows, List.mem_flatten, List.mem_map] at hid
    obtain ⟨_, ⟨row, hrow, rfl⟩, hmem⟩ := hid
    have := (hfits row hrow).2 id hmem
    simp only [ofRows, count, List.length_map, hlength]
    omega

/-! ### The tree of a table -/

/-- The tree below a node, if it is not higher than `levels`. -/
def treeAt? (t : Table) : (levels : Nat) → (id : Nat) → Option Tree
  | 0, _ => none
  | levels + 1, id => do
    let label ← t.labels[id]?
    let kinds ← t.edges[id]?
    let ids ← t.children[id]?
    if kinds.length = ids.length then
      let subtrees ← ids.mapM (t.treeAt? levels)
      some (.node label (kinds.zip subtrees))
    else none

/-- The tree that the rows of a table describe, followed from the root on. -/
def tree? (t : Table) : Option Tree := t.treeAt? t.count t.rootId

theorem treeAt?_ofRows {rootId id : Nat} {rows : List Row} {row : Row} {levels : Nat}
    {subtrees : List Tree} (hrow : rows[id]? = some row)
    (hkinds : row.kinds.length = row.ids.length)
    (hsubtrees : row.ids.mapM ((ofRows rootId rows).treeAt? levels) = some subtrees) :
    (ofRows rootId rows).treeAt? (levels + 1) id =
      some (.node row.label (row.kinds.zip subtrees)) := by
  have hlabel : (ofRows rootId rows).labels[id]? = some row.label := by simp [ofRows, hrow]
  have hedges : (ofRows rootId rows).edges[id]? = some row.kinds := by simp [ofRows, hrow]
  have hids : (ofRows rootId rows).children[id]? = some row.ids := by simp [ofRows, hrow]
  rw [treeAt?, hlabel, hedges, hids]
  simp only [Option.bind_eq_bind, Option.bind_some, if_pos hkinds, hsubtrees]

/-- The row of the root stands right behind those of its subtrees. -/
theorem getElem?_root_of_rowsFrom {rows front back : List Row} {label : String}
    {children : List (EdgeKind × Tree)}
    (hrows : rows = front ++ (rowsFrom front.length (.node label children) ++ back)) :
    rows[front.length + Tree.sizeList children]? =
      some ⟨label, children.map (·.1), rootsFrom front.length children⟩ := by
  have hlast : front.length + Tree.sizeList children =
      (front ++ rowsFromList front.length children).length := by
    rw [List.length_append, Numbering.length_rowsFromList]
  rw [rowsFrom, List.append_assoc] at hrows
  rw [hrows, hlast, ← List.append_assoc, List.getElem?_append_right (Nat.le_refl _), Nat.sub_self]
  rfl

mutual

/-- **The rows of a tree describe the tree**, wherever they stand among other rows. -/
theorem treeAt?_of_rowsFrom {rootId : Nat} {rows front back : List Row} {levels : Nat} :
    ∀ t : Tree, rows = front ++ (rowsFrom front.length t ++ back) → t.size ≤ levels →
      (ofRows rootId rows).treeAt? levels (front.length + t.size - 1) = some t
  | .node label children => by
    intro hrows hlevels
    rw [Tree.size] at hlevels ⊢
    obtain ⟨levels, rfl⟩ : ∃ below, levels = below + 1 := ⟨levels - 1, by omega⟩
    have hrow := getElem?_root_of_rowsFrom hrows
    have hlast : front.length + (1 + Tree.sizeList children) - 1 =
        front.length + Tree.sizeList children := by omega
    rw [rowsFrom, List.append_assoc] at hrows
    have hsubtrees : (rootsFrom front.length children).mapM
        ((ofRows rootId rows).treeAt? levels) = some (children.map (·.2)) :=
      mapM_treeAt?_of_rowsFromList children hrows (by omega)
    rw [hlast, treeAt?_ofRows hrow (by simp [Numbering.length_rootsFrom]) hsubtrees, List.zip_map',
      List.map_id']

theorem mapM_treeAt?_of_rowsFromList {rootId : Nat} {rows front back : List Row} {levels : Nat} :
    ∀ ts : List (EdgeKind × Tree), rows = front ++ (rowsFromList front.length ts ++ back) →
      Tree.sizeList ts ≤ levels →
      (rootsFrom front.length ts).mapM ((ofRows rootId rows).treeAt? levels) =
        some (ts.map (·.2))
  | [] => fun _ _ => rfl
  | (kind, t) :: ts => by
    intro hrows hlevels
    rw [Tree.sizeList] at hlevels
    rw [rowsFromList, List.append_assoc] at hrows
    have hfirst : (ofRows rootId rows).treeAt? levels (front.length + t.size - 1) = some t :=
      treeAt?_of_rowsFrom t hrows (by omega)
    -- the rows of the first tree stand in front of those of the others
    have hlength : front.length + t.size = (front ++ rowsFrom front.length t).length := by
      rw [List.length_append, Numbering.length_rowsFrom]
    rw [← List.append_assoc, hlength] at hrows
    have hrest : (rootsFrom (front ++ rowsFrom front.length t).length ts).mapM
        ((ofRows rootId rows).treeAt? levels) = some (ts.map (·.2)) :=
      mapM_treeAt?_of_rowsFromList ts hrows (by omega)
    rw [← hlength] at hrest
    rw [rootsFrom, List.mapM_cons, hfirst, hrest]
    rfl

end

/-- **The rows of a tree describe the tree.** -/
theorem tree?_ofTree (t : Tree) : (Table.ofTree t).tree? = some t := by
  have hcount : (ofRows (t.size - 1) (rowsFrom 0 t)).count = t.size := by
    simp [count, ofRows, Numbering.length_rowsFrom]
  have hrows : rowsFrom 0 t = [] ++ (rowsFrom 0 t ++ []) := by simp
  have htree : (ofRows (t.size - 1) (rowsFrom 0 t)).treeAt? t.size (0 + t.size - 1) = some t :=
    treeAt?_of_rowsFrom t hrows (Nat.le_refl _)
  rw [Nat.zero_add] at htree
  rw [ofTree_eq, tree?, hcount]
  exact htree

end Table

end AccessGraph
