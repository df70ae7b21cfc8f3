import AccessGraph.Proofs.Table.Described
import AccessGraph.Proofs.Table.Joined
import Mathlib.Algebra.GroupWithZero.Nat
import Mathlib.Data.List.Nodup
import Mathlib.Logic.Relation
/-!
# Subtrees have consecutive numbers

The numbers of a tree are handed out child by child, and to a node right after its children. So the
nodes of each subtree have consecutive numbers, the last of which is that of its root.

* `Tree.postorder` : the subtrees of a tree, in the order in which their roots are numbered.
* `Numbering.exists_rowsFrom_of_postorder` : the rows of a subtree stand side by side.
* `Numbering.perm_range'_ids` : the numbers of all children, each of them once.
* `Table.Reaches` : a node is reached from another one by following rows.
* `Table.reaches_iff_of_rowsFrom` : **from the root of a subtree exactly the nodes of the subtree are
  reached.**
* `Table.postOrdered_ofTree` : **the table of a tree numbers its nodes in post-order.**
-/

namespace AccessGraph

namespace Tree

mutual

/-- The subtrees of a tree, one for each node, each behind those of its children. -/
def postorder : Tree → List Tree
  | .node label children => postorderList children ++ [.node label children]

/-- The subtrees of several trees, tree by tree. -/
def postorderList : List (EdgeKind × Tree) → List Tree
  | [] => []
  | (_, t) :: ts => postorder t ++ postorderList ts

end

mutual

theorem length_postorder : ∀ t : Tree, t.postorder.length = t.size
  | .node label children => by
    rw [postorder, List.length_append, length_postorderList children, size, Nat.add_comm]
    rfl

theorem length_postorderList :
    ∀ ts : List (EdgeKind × Tree), (postorderList ts).length = sizeList ts
  | [] => rfl
  | (_, t) :: ts => by
    rw [postorderList, List.length_append, length_postorder t, length_postorderList ts, sizeList]

end

theorem sizeList_eq_sum (ts : List (EdgeKind × Tree)) :
    sizeList ts = (ts.map (·.2.size)).sum := by
  induction ts with
  | nil => rfl
  | cons t ts ih => rw [sizeList, ih, List.map_cons, List.sum_cons]

/-- A tree has one node more than the trees below its root. -/
theorem count_eq_sum (t : Tree) : t.count = 1 + (t.children.map (·.2.count)).sum := by
  simp only [count_eq_size]
  rw [size_eq, sizeList_eq_sum]

end Tree

namespace Numbering

/-! ### Where the rows of a subtree stand -/

mutual

/-- **The rows of a subtree stand side by side** among those of the tree, and the last one of them,
that of its root, has the number of the subtree. -/
theorem exists_rowsFrom_of_postorder (first : Nat) {u : Tree} :
    ∀ {t : Tree} {id : Nat}, t.postorder[id]? = some u →
      ∃ front back, rowsFrom first t = front ++ (rowsFrom (first + front.length) u ++ back) ∧
        front.length + u.size = id + 1
  | .node label children, id => by
    intro h
    have hlength := Tree.length_postorderList children
    rw [Tree.postorder] at h
    rcases Nat.lt_or_ge id (Tree.sizeList children) with hlt | hge
    · rw [List.getElem?_append_left (by omega)] at h
      obtain ⟨front, back, hrows, hid⟩ := exists_rowsFrom_of_postorderList first h
      refine ⟨front, back ++ [⟨label, children.map (·.1), rootsFrom first children⟩], ?_, hid⟩
      rw [rowsFrom, hrows]
      simp only [List.append_assoc]
    · -- behind the subtrees of the children stands the tree itself
      rw [List.getElem?_append_right (by omega), List.getElem?_singleton] at h
      obtain ⟨hlast, rfl⟩ : id - (Tree.postorderList children).length = 0 ∧
          .node label children = u := by
        simpa using h
      refine ⟨[], [], by simp, ?_⟩
      rw [Tree.size, List.length_nil]
      omega

theorem exists_rowsFrom_of_postorderList (first : Nat) {u : Tree} :
    ∀ {ts : List (EdgeKind × Tree)} {id : Nat}, (Tree.postorderList ts)[id]? = some u →
      ∃ front back, rowsFromList first ts = front ++ (rowsFrom (first + front.length) u ++ back) ∧
        front.length + u.size = id + 1
  | [], id => by
    intro h
    rw [Tree.postorderList] at h
    simp at h
  | (_, t) :: ts, id => by
    intro h
    have hlength := Tree.length_postorder t
    rw [Tree.postorderList] at h
    rcases Nat.lt_or_ge id t.size with hlt | hge
    · rw [List.getElem?_append_left (by omega)] at h
      obtain ⟨front, back, hrows, hid⟩ := exists_rowsFrom_of_postorder first h
      refine ⟨front, back ++ rowsFromList (first + t.size) ts, ?_, hid⟩
      rw [rowsFromList, hrows]
      simp only [List.append_assoc]
    · rw [List.getElem?_append_right (by omega)] at h
      obtain ⟨front, back, hrows, hid⟩ := exists_rowsFrom_of_postorderList (first + t.size) h
      have hfront := length_rowsFrom first t
      refine ⟨rowsFrom first t ++ front, back, ?_, ?_⟩
      · rw [rowsFromList, hrows, List.length_append, hfront, List.append_assoc, Nat.add_assoc]
      · rw [List.length_append]
        omega

end

/-! ### The numbers of children -/

theorem le_of_mem_rootsFrom {first id : Nat} {ts : List (EdgeKind × Tree)}
    (h : id ∈ rootsFrom first ts) : first ≤ id := by
  induction ts generalizing first with
  | nil => simp [rootsFrom] at h
  | cons t ts ih =>
    have hpos := t.2.size_pos
    rcases List.mem_cons.1 h with rfl | h
    · omega
    · have := ih h
      omega

/-- The children of a node have increasing numbers. -/
theorem pairwise_rootsFrom (first : Nat) (ts : List (EdgeKind × Tree)) :
    (rootsFrom first ts).Pairwise (· < ·) := by
  induction ts generalizing first with
  | nil => exact .nil
  | cons t ts ih =>
    refine List.pairwise_cons.2 ⟨fun id hid => ?_, ih _⟩
    have hpos := t.2.size_pos
    have := le_of_mem_rootsFrom hid
    omega

/-- The last child has the last number below its parent. -/
theorem getLast?_rootsFrom (first : Nat) {ts : List (EdgeKind × Tree)} (h : ts ≠ []) :
    (rootsFrom first ts).getLast? = some (first + Tree.sizeList ts - 1) := by
  induction ts generalizing first with
  | nil => exact absurd rfl h
  | cons t ts ih =>
    rw [rootsFrom, Tree.sizeList, ← Nat.add_assoc]
    cases ts with
    | nil => rfl
    | cons t' ts =>
      rw [List.getLast?_cons, ih _ (List.cons_ne_nil _ _)]
      rfl

mutual

/-- **Each number but that of the root is that of a child once.** -/
theorem perm_range'_ids (first : Nat) :
    ∀ t : Tree, ((rowsFrom first t).flatMap (·.ids)).Perm (List.range' first (t.size - 1))
  | .node label children => by
    rw [rowsFrom, List.flatMap_append, List.flatMap_singleton, Tree.size, Nat.add_sub_cancel_left]
    exact perm_range'_idsList first children

theorem perm_range'_idsList (first : Nat) :
    ∀ ts : List (EdgeKind × Tree),
      ((rowsFromList first ts).flatMap (·.ids) ++ rootsFrom first ts).Perm
        (List.range' first (Tree.sizeList ts))
  | [] => .refl _
  | (_, t) :: ts => by
    have hpos := t.size_pos
    have hfirst := perm_range'_ids first t
    have hrest := perm_range'_idsList (first + t.size) ts
    -- the number of the first root follows those of its subtrees
    have hroot : List.range' first t.size =
        List.range' first (t.size - 1) ++ [first + t.size - 1] := by
      obtain ⟨n, hn⟩ := Nat.exists_eq_add_one_of_ne_zero (Nat.ne_of_gt hpos)
      rw [hn, List.range'_1_concat, Nat.add_sub_cancel, ← Nat.add_assoc, Nat.add_sub_cancel]
    rw [rowsFromList, List.flatMap_append, rootsFrom, Tree.sizeList, ← List.range'_append_1, hroot]
    refine List.Perm.trans ?_ ((hfirst.append_right [first + t.size - 1]).append hrest)
    rw [List.append_assoc, List.append_assoc]
    exact List.Perm.append_left _ List.perm_middle

end

end Numbering

namespace Table

open AccessGraph.Numbering (Row rowsFrom rowsFromList rootsFrom)

/-! ### Following rows -/

/-- A node is a child of another one. -/
def IsChild (t : Table) (id child : Nat) : Prop := ∃ ids, t.children[id]? = some ids ∧ child ∈ ids

/-- A node is reached from another one by going from nodes to their children, or not going at all. -/
def Reaches (t : Table) : Nat → Nat → Prop := Relation.ReflTransGen t.IsChild

/-- The child at a place, which is a row and a position in it. -/
def childAt? (t : Table) (place : Nat × Nat) : Option Nat := do
  let ids ← t.children[place.1]?
  ids[place.2]?

theorem isChild_ofRows {rootId id child : Nat} {rows : List Row} {row : Row}
    (h : rows[id]? = some row) : (ofRows rootId rows).IsChild id child ↔ child ∈ row.ids := by
  have hids : (ofRows rootId rows).children[id]? = some row.ids := by simp [ofRows, h]
  constructor
  · rintro ⟨ids, hids', hchild⟩
    rwa [Option.some.inj (hids.symm.trans hids')]
  · exact fun hchild => ⟨row.ids, hids, hchild⟩

mutual

/-- **From the root of a subtree exactly the nodes of the subtree are reached**, wherever its rows
stand among others. -/
theorem reaches_iff_of_rowsFrom {rows front back : List Row} (rootId id : Nat) :
    ∀ t : Tree, rows = front ++ (rowsFrom front.length t ++ back) →
      ((ofRows rootId rows).Reaches (front.length + t.size - 1) id ↔
        front.length ≤ id ∧ id < front.length + t.size)
  | .node label children => by
    intro hrows
    have hrow := getElem?_root_of_rowsFrom hrows
    have hlast : front.length + (1 + Tree.sizeList children) - 1 =
        front.length + Tree.sizeList children := by omega
    rw [rowsFrom, List.append_assoc] at hrows
    have hbelow := exists_reaches_iff_of_rowsFromList rootId id children hrows
    rw [Tree.size, hlast, Reaches, Relation.ReflTransGen.cases_head_iff]
    simp only [isChild_ofRows hrow]
    rw [show (∃ c ∈ rootsFrom front.length children,
      Relation.ReflTransGen (ofRows rootId rows).IsChild c id) ↔ _ from hbelow]
    omega

theorem exists_reaches_iff_of_rowsFromList {rows front back : List Row} (rootId id : Nat) :
    ∀ ts : List (EdgeKind × Tree), rows = front ++ (rowsFromList front.length ts ++ back) →
      ((∃ root ∈ rootsFrom front.length ts, (ofRows rootId rows).Reaches root id) ↔
        front.length ≤ id ∧ id < front.length + Tree.sizeList ts)
  | [] => by
    intro _
    rw [rootsFrom, Tree.sizeList]
    exact iff_of_false (by simp) (by omega)
  | (_, t) :: ts => by
    intro hrows
    rw [rowsFromList, List.append_assoc] at hrows
    have hfirst := reaches_iff_of_rowsFrom rootId id t hrows
    -- the rows of the first tree stand in front of those of the others
    have hlength : front.length + t.size = (front ++ rowsFrom front.length t).length := by
      rw [List.length_append, Numbering.length_rowsFrom]
    rw [← List.append_assoc, hlength] at hrows
    have hrest := exists_reaches_iff_of_rowsFromList rootId id ts hrows
    rw [← hlength] at hrest
    rw [rootsFrom, List.exists_mem_cons_iff, hfirst, hrest, Tree.sizeList]
    omega

end

/-! ### One place for each child -/

/-- In rows without repetition each entry has one place. -/
theorem existsUnique_childAt? {t : Table} (h : t.children.flatten.Nodup) {id : Nat}
    (hid : id ∈ t.children.flatten) : ∃! place, t.childAt? place = some id := by
  obtain ⟨hrows, hdisjoint⟩ := List.nodup_flatten.1 h
  obtain ⟨ids, hids, hmem⟩ := List.mem_flatten.1 hid
  obtain ⟨row, hrow⟩ := List.mem_iff_getElem?.1 hids
  obtain ⟨position, hposition⟩ := List.mem_iff_getElem?.1 hmem
  refine ⟨(row, position), by simp [childAt?, hrow, hposition], ?_⟩
  rintro ⟨row', position'⟩ hplace
  obtain ⟨ids', hrow', hposition'⟩ := Option.bind_eq_some_iff.1 hplace
  have hmem' : id ∈ ids' := List.mem_of_getElem? hposition'
  -- two rows have nothing in common
  have hsame : row' = row := by
    obtain ⟨hlt, rfl⟩ := List.getElem?_eq_some_iff.1 hrow
    obtain ⟨hlt', rfl⟩ := List.getElem?_eq_some_iff.1 hrow'
    rcases Nat.lt_trichotomy row row' with hless | heq | hmore
    · exact absurd hmem' (List.pairwise_iff_getElem.1 hdisjoint row row' hlt hlt' hless hmem)
    · exact heq.symm
    · exact absurd hmem (List.pairwise_iff_getElem.1 hdisjoint row' row hlt' hlt hmore hmem')
  subst hsame
  obtain rfl : ids = ids' := Option.some.inj (hrow.symm.trans hrow')
  have hlt : position' < ids.length := (List.getElem?_eq_some_iff.1 hposition').1
  have hposition_eq : position' = position :=
    (List.getElem?_inj hlt (hrows ids hids)).1 (hposition'.trans hposition.symm)
  rw [hposition_eq]

/-! ### Tables of trees -/

/-- The nodes of a tree are numbered in post-order: each after its children, and the children in
order. -/
structure PostOrdered (table : Table) (t : Tree) : Prop where
  /-- Each list has a row for each node. -/
  rows : table.children.length = t.count ∧ table.edges.length = t.count ∧
    table.labels.length = t.count
  /-- The root has the last number. -/
  root : table.rootId + 1 = t.count
  /-- Each row has as many edge kinds as children. -/
  aligned : table.children.map List.length = table.edges.map List.length
  /-- The children of a node have increasing numbers, which are smaller than that of the node. -/
  increasing : ∀ (id : Nat) (ids : List Nat), table.children[id]? = some ids →
    ids.Pairwise (· < ·) ∧ ∀ child ∈ ids, child < id
  /-- Each node but the root is a child at exactly one place. -/
  place : ∀ id, id < t.count → id ≠ table.rootId → ∃! place, table.childAt? place = some id
  /-- The root is the child of no node. -/
  no_place : ∀ place, table.childAt? place ≠ some table.rootId
  /-- From a node exactly the nodes of its subtree are reached, and these have consecutive numbers,
  the last of which is its own; so its last child has the number before. -/
  subtree : ∀ id, id < t.count → ∃ u, t.postorder[id]? = some u ∧ table.Describes id u ∧
    (∀ other, table.Reaches id other ↔ id + 1 ≤ other + u.count ∧ other ≤ id) ∧
    (u.children ≠ [] → ∃ ids, table.children[id]? = some ids ∧ ids.getLast? = some (id - 1))

/-- The numbers of all children are those below that of the root. -/
theorem perm_range_flatten_ofTree (t : Tree) :
    (Table.ofTree t).children.flatten.Perm (List.range (t.size - 1)) := by
  have hperm := Numbering.perm_range'_ids 0 t
  rw [← List.range_eq_range', List.flatMap_def] at hperm
  rw [ofTree_eq]
  exact hperm

/-- The row of a subtree, and where its rows stand. -/
theorem exists_row_of_postorder {t u : Tree} {id : Nat} (h : t.postorder[id]? = some u) :
    ∃ first, first + u.size = id + 1 ∧ (Table.ofTree t).Describes id u ∧
      (Table.ofTree t).children[id]? = some (rootsFrom first u.children) ∧
      ∀ other, (Table.ofTree t).Reaches id other ↔ first ≤ other ∧ other < first + u.size := by
  obtain ⟨front, back, hrows, hid⟩ := Numbering.exists_rowsFrom_of_postorder 0 h
  rw [Nat.zero_add] at hrows
  have hnumber : id = front.length + u.size - 1 := by omega
  refine ⟨front.length, hid, ?_⟩
  rw [ofTree_eq, hnumber]
  refine ⟨?_, ?_, fun other => reaches_iff_of_rowsFrom _ other u hrows⟩
  · exact describes_of_treeAt? (treeAt?_of_rowsFrom u hrows (Nat.le_refl _))
  · obtain ⟨label, children⟩ := u
    have hrow := getElem?_root_of_rowsFrom hrows
    have hlast : front.length + (1 + Tree.sizeList children) - 1 =
        front.length + Tree.sizeList children := by omega
    rw [Tree.size, hlast]
    simp [ofRows, hrow, Tree.children]

/-- **The table of a tree numbers its nodes in post-order**, where a tree has one node more than the
trees below its root. -/
theorem postOrdered_ofTree :
    (∀ t : Tree, t.count = 1 + (t.children.map (·.2.count)).sum) ∧
      ∀ t : Tree, (Table.ofTree t).PostOrdered t := by
  refine ⟨Tree.count_eq_sum, fun t => ?_⟩
  have hwell := wellFormed_ofTree t
  have hcount : (Table.ofTree t).count = t.count := by
    rw [count_ofTree_eq_size, Tree.count_eq_size]
  have hroot : (Table.ofTree t).rootId + 1 = t.count := by rw [rootId_ofTree, ← count_ofTree, hcount]
  have hperm := perm_range_flatten_ofTree t
  rw [← Tree.count_eq_size] at hperm
  have hmem : ∀ id, id ∈ (Table.ofTree t).children.flatten ↔ id < t.count - 1 := fun id =>
    hperm.mem_iff.trans List.mem_range
  have hsubtree : ∀ id, id < t.count → ∃ u, t.postorder[id]? = some u := by
    intro id hid
    rw [Tree.count_eq_size, ← Tree.length_postorder] at hid
    exact ⟨_, List.getElem?_eq_getElem hid⟩
  refine
    { rows := ⟨hwell.rows.trans hcount, hwell.edges_length.trans hcount, hcount⟩
      root := hroot
      aligned := hwell.aligned
      increasing := ?_
      place := ?_
      no_place := ?_
      subtree := ?_ }
  · intro id ids hids
    have hid : id < t.count := by
      rw [← hcount, ← hwell.rows]
      exact (List.getElem?_eq_some_iff.1 hids).1
    obtain ⟨u, hu⟩ := hsubtree id hid
    obtain ⟨first, hfirst, -, hrow, -⟩ := exists_row_of_postorder hu
    obtain rfl : rootsFrom first u.children = ids := Option.some.inj (hrow.symm.trans hids)
    refine ⟨Numbering.pairwise_rootsFrom first u.children, fun child hchild => ?_⟩
    have hlt := Numbering.lt_of_mem_rootsFrom hchild
    rw [Tree.size_eq] at hfirst
    omega
  · intro id hid hne
    exact existsUnique_childAt? (hperm.nodup_iff.2 List.nodup_range) ((hmem id).2 (by omega))
  · intro place hplace
    obtain ⟨ids, hids, hchild⟩ := Option.bind_eq_some_iff.1 hplace
    have hin := List.mem_flatten.2 ⟨ids, List.mem_of_getElem? hids, List.mem_of_getElem? hchild⟩
    have hlt := (hmem _).1 hin
    omega
  · intro id hid
    obtain ⟨u, hu⟩ := hsubtree id hid
    obtain ⟨first, hfirst, hdescribes, hrow, hreaches⟩ := exists_row_of_postorder hu
    refine ⟨u, hu, hdescribes, fun other => ?_, fun hchildren => ⟨_, hrow, ?_⟩⟩
    · rw [hreaches other, Tree.count_eq_size]
      omega
    · rw [Numbering.getLast?_rootsFrom first hchildren]
      rw [Tree.size_eq] at hfirst
      congr 1
      omega

end Table

end AccessGraph
