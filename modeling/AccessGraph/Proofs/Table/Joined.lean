import AccessGraph.Proofs.Table.Postorder
import Mathlib.Algebra.GroupWithZero.Nat
/-!
# Tables joined at their roots

The children of the roots of several trees may hang below one root instead. Then the rows of the
trees follow each other, with all numbers raised by the number of rows in front, and the rows of the
roots become one row, the last one.

* `Numbering.rowsFrom_add` : the rows of a tree, from a later number on.
* `Table.row?` : what a table holds about a node.
* `Table.Joins` : a table is made of several others in this way.
* `Table.JoinsPair`, `Table.Joins.pair` : what that comes to for two tables.
* `Table.joins_ofTree` : **the table of joined trees is made of the tables of the trees.**
-/

namespace AccessGraph

namespace Numbering

/-- A row with the numbers of all children raised. -/
def Row.shift (k : Nat) (row : Row) : Row := { row with ids := row.ids.map (· + k) }

theorem Row.shift_zero (row : Row) : row.shift 0 = row := by
  simp [Row.shift]

/-! ### Rows from a later number on -/

theorem rootsFrom_add (first k : Nat) (ts : List (EdgeKind × Tree)) :
    rootsFrom (first + k) ts = (rootsFrom first ts).map (· + k) := by
  induction ts generalizing first with
  | nil => rfl
  | cons t ts ih =>
    have hpos := t.2.size_pos
    have hfirst : first + k + t.2.size - 1 = first + t.2.size - 1 + k := by omega
    rw [rootsFrom, rootsFrom, List.map_cons, hfirst, Nat.add_right_comm, ih]

theorem rootsFrom_append (first : Nat) (ts us : List (EdgeKind × Tree)) :
    rootsFrom first (ts ++ us) = rootsFrom first ts ++ rootsFrom (first + Tree.sizeList ts) us := by
  induction ts generalizing first with
  | nil => rfl
  | cons t ts ih =>
    rw [List.cons_append, rootsFrom, ih, rootsFrom, Tree.sizeList, Nat.add_assoc]
    rfl

theorem rowsFromList_append (first : Nat) (ts us : List (EdgeKind × Tree)) :
    rowsFromList first (ts ++ us) =
      rowsFromList first ts ++ rowsFromList (first + Tree.sizeList ts) us := by
  induction ts generalizing first with
  | nil => rfl
  | cons t ts ih =>
    rw [List.cons_append, rowsFromList, ih, rowsFromList, Tree.sizeList, List.append_assoc,
      Nat.add_assoc]

mutual

/-- **The rows of a tree, from a later number on**, are its rows with all numbers raised. -/
theorem rowsFrom_add (first k : Nat) :
    ∀ t : Tree, rowsFrom (first + k) t = (rowsFrom first t).map (Row.shift k)
  | .node label children => by
    rw [rowsFrom, rowsFromList_add first k children, rootsFrom_add, rowsFrom, List.map_append]
    rfl

theorem rowsFromList_add (first k : Nat) :
    ∀ ts : List (EdgeKind × Tree),
      rowsFromList (first + k) ts = (rowsFromList first ts).map (Row.shift k)
  | [] => rfl
  | (_, t) :: ts => by
    rw [rowsFromList, rowsFrom_add first k t, Nat.add_right_comm,
      rowsFromList_add (first + t.size) k ts, rowsFromList, List.map_append]

end

end Numbering

namespace Table

open AccessGraph.Numbering (Row rowsFrom rowsFromList rootsFrom)

/-- What a table holds about the node of number `id`. -/
def row? (t : Table) (id : Nat) : Option Row := do
  let label ← t.labels[id]?
  let kinds ← t.edges[id]?
  let ids ← t.children[id]?
  some ⟨label, kinds, ids⟩

theorem row?_ofRows (rootId id : Nat) (rows : List Row) :
    (ofRows rootId rows).row? id = rows[id]? := by
  simp only [row?, ofRows, List.getElem?_map]
  cases rows[id]? <;> rfl

theorem lt_count_of_row? {t : Table} {id : Nat} {row : Row} (h : t.row? id = some row) :
    id < t.count := by
  obtain ⟨label, hlabel, -⟩ := Option.bind_eq_some_iff.1 h
  exact (List.getElem?_eq_some_iff.1 hlabel).1

/-- How many rows several tables have besides those of their roots. -/
def inner (ts : List Table) : Nat := (ts.map (·.count - 1)).sum

/-- The children of the roots of several tables follow each other, the kinds of the edges and the
numbers, where the rows of the first table stand behind `k` others. -/
inductive JoinsRoots : Nat → List Table → List EdgeKind → List Nat → Prop
  | nil {k : Nat} : JoinsRoots k [] [] []
  | cons {k : Nat} {t : Table} {ts : List Table} {root : Row} {kinds : List EdgeKind}
      {ids : List Nat} (hroot : t.row? t.rootId = some root)
      (hrest : JoinsRoots (k + (t.count - 1)) ts kinds ids) :
      JoinsRoots k (t :: ts) (root.kinds ++ kinds) ((root.shift k).ids ++ ids)

/-- A table is made of several others, whose roots have become one. -/
structure Joins (parts : List Table) (label : String) (t : Table) : Prop where
  /-- All rows of the parts are there, but only one root. -/
  count : t.count = inner parts + 1
  /-- There are as many rows of children and of edge kinds. -/
  rows : t.children.length = t.count ∧ t.edges.length = t.count
  /-- The root is the last node. -/
  rootId : t.rootId = inner parts
  /-- The rows of a part follow those of the parts before it, with all numbers raised. -/
  below : ∀ before part after, parts = before ++ part :: after → ∀ id, id + 1 < part.count →
    ∃ row, part.row? id = some row ∧ t.row? (inner before + id) = some (row.shift (inner before))
  /-- The row of the root holds the rows of all roots. -/
  root : ∃ kinds ids, JoinsRoots 0 parts kinds ids ∧ t.row? t.rootId = some ⟨label, kinds, ids⟩

/-- A table is made of two others, whose roots have become one. -/
structure JoinsPair (first second : Table) (label : String) (t : Table) : Prop where
  /-- All rows are there, but only one root. -/
  count : t.count = first.count + second.count - 1
  /-- There are as many rows of children and of edge kinds. -/
  rows : t.children.length = t.count ∧ t.edges.length = t.count
  /-- The rows of the first table come first, as they are. -/
  first_below : ∀ id, id + 1 < first.count →
    ∃ row, first.row? id = some row ∧ t.row? id = some row
  /-- The rows of the second table follow, with all numbers raised. -/
  second_below : ∀ id, id + 1 < second.count → ∃ row, second.row? id = some row ∧
    t.row? (first.count - 1 + id) = some (row.shift (first.count - 1))
  /-- The root is the last node. -/
  rootId : t.rootId = t.count - 1
  /-- The children of the second root follow those of the first. -/
  root : ∃ row row', first.row? first.rootId = some row ∧ second.row? second.rootId = some row' ∧
    t.row? t.rootId =
      some ⟨label, row.kinds ++ row'.kinds, row.ids ++ (row'.shift (first.count - 1)).ids⟩

/-- Joining two tables is a case of joining any number of them. -/
theorem Joins.pair {first second t : Table} {label : String} (h : Joins [first, second] label t) :
    JoinsPair first second label t := by
  have hinner : inner [first] = first.count - 1 := by simp [inner]
  have hinner' : inner [first, second] = first.count - 1 + (second.count - 1) := by simp [inner]
  obtain ⟨kinds, ids, hroots, hroot⟩ := h.root
  -- neither table is empty, as it has a row for its root
  cases hroots with
  | cons hfirst hrest =>
    cases hrest with
    | cons hsecond hnil =>
      cases hnil
      have hpos := lt_count_of_row? hfirst
      have hpos' := lt_count_of_row? hsecond
      refine
        { count := by rw [h.count, hinner']; omega
          rows := h.rows
          first_below := fun id hid => ?_
          second_below := fun id hid => ?_
          rootId := by rw [h.rootId, h.count, Nat.add_sub_cancel]
          root := ⟨_, _, hfirst, hsecond, ?_⟩ }
      · obtain ⟨row, hrow, hjoined⟩ := h.below [] first [second] rfl id hid
        rw [inner, List.map_nil, List.sum_nil, Nat.zero_add, Numbering.Row.shift_zero] at hjoined
        exact ⟨row, hrow, hjoined⟩
      · obtain ⟨row, hrow, hjoined⟩ := h.below [first] second [] rfl id hid
        rw [hinner] at hjoined
        exact ⟨row, hrow, hjoined⟩
      · rw [hroot, Numbering.Row.shift_zero, Nat.zero_add, List.append_nil, List.append_nil]

/-! ### Tables of trees -/

/-- The rows of the children of a tree, and then the row of its root. -/
theorem ofTree_eq_children (t : Tree) :
    Table.ofTree t = ofRows (Tree.sizeList t.children) (rowsFromList 0 t.children ++
      [⟨t.label, t.children.map (·.1), rootsFrom 0 t.children⟩]) := by
  obtain ⟨label, children⟩ := t
  rw [ofTree_eq, rowsFrom, Tree.size, Nat.add_sub_cancel_left]
  rfl

theorem count_ofTree (t : Tree) : (Table.ofTree t).count = Tree.sizeList t.children + 1 := by
  simp [ofTree_eq_children, ofRows, count, Numbering.length_rowsFromList]

/-- The table of a tree has a row for each node. -/
theorem count_ofTree_eq_size (t : Tree) : (Table.ofTree t).count = t.size := by
  rw [count_ofTree, Tree.size_eq, Nat.add_comm]

theorem rootId_ofTree (t : Tree) : (Table.ofTree t).rootId = Tree.sizeList t.children := by
  rw [ofTree_eq_children]
  rfl

/-- The last row of the table of a tree is that of the root. -/
theorem row?_rootId_ofTree (t : Tree) : (Table.ofTree t).row? (Table.ofTree t).rootId =
    some ⟨t.label, t.children.map (·.1), rootsFrom 0 t.children⟩ := by
  have hlast := Numbering.length_rowsFromList 0 t.children
  rw [rootId_ofTree, ofTree_eq_children, row?_ofRows,
    List.getElem?_append_right (Nat.le_of_eq hlast), hlast, Nat.sub_self]
  rfl

/-- The other rows are those of the children. -/
theorem row?_below_ofTree {t : Tree} {id : Nat} (h : id < Tree.sizeList t.children) :
    (Table.ofTree t).row? id = (rowsFromList 0 t.children)[id]? := by
  rw [← Numbering.length_rowsFromList 0] at h
  rw [ofTree_eq_children, row?_ofRows, List.getElem?_append_left h]

/-- The rows of some of the children, in front of which others stand. -/
theorem row?_between_ofTree {label : String} (before ts after : List (EdgeKind × Tree)) {id : Nat}
    (h : id < Tree.sizeList ts) :
    (Table.ofTree (.node label (before ++ (ts ++ after)))).row? (Tree.sizeList before + id) =
      ((rowsFromList 0 ts)[id]?).map (Row.shift (Tree.sizeList before)) := by
  have hbelow : Tree.sizeList before + id < Tree.sizeList (before ++ (ts ++ after)) := by
    rw [Tree.sizeList_append, Tree.sizeList_append]
    omega
  have hbefore := Numbering.length_rowsFromList 0 before
  have hlength := Numbering.length_rowsFromList (0 + Tree.sizeList before) ts
  rw [row?_below_ofTree hbelow, Tree.children, Numbering.rowsFromList_append,
    Numbering.rowsFromList_append, List.getElem?_append_right (by omega), hbefore,
    Nat.add_sub_cancel_left, List.getElem?_append_left (by omega), Numbering.rowsFromList_add,
    List.getElem?_map]

theorem inner_map_ofTree (ts : List Tree) :
    inner (ts.map Table.ofTree) = Tree.sizeList (ts.flatMap Tree.children) := by
  induction ts with
  | nil => rfl
  | cons t ts ih =>
    rw [inner, List.map_cons, List.map_cons, List.sum_cons, ← inner, ih, count_ofTree,
      List.flatMap_cons, Tree.sizeList_append, Nat.add_sub_cancel]

/-- The children of several trees, one after the other, have the kinds and the numbers that the rows
of the roots say. -/
theorem joinsRoots_map_ofTree (k : Nat) (ts : List Tree) :
    JoinsRoots k (ts.map Table.ofTree) ((ts.flatMap Tree.children).map (·.1))
      (rootsFrom k (ts.flatMap Tree.children)) := by
  induction ts generalizing k with
  | nil => exact .nil
  | cons t ts ih =>
    have hids : (rootsFrom 0 t.children).map (· + k) = rootsFrom k t.children := by
      rw [← Numbering.rootsFrom_add, Nat.zero_add]
    rw [List.map_cons, List.flatMap_cons, List.map_append, Numbering.rootsFrom_append, ← hids]
    refine .cons (row?_rootId_ofTree t) ?_
    rw [count_ofTree, Nat.add_sub_cancel]
    exact ih _

/-- **The table of joined trees is made of the tables of the trees.** -/
theorem joins_ofTree (label : String) (ts : List Tree) :
    Joins (ts.map Table.ofTree) label (Table.ofTree (.node label (ts.flatMap Tree.children))) := by
  have hcount := count_ofTree (.node label (ts.flatMap Tree.children))
  have hwell := wellFormed_ofTree (.node label (ts.flatMap Tree.children))
  refine
    { count := by rw [hcount, inner_map_ofTree]; rfl
      rows := ⟨hwell.rows, hwell.edges_length⟩
      rootId := by rw [rootId_ofTree, inner_map_ofTree]; rfl
      below := ?_
      root := ⟨_, _, joinsRoots_map_ofTree 0 ts, row?_rootId_ofTree _⟩ }
  intro before part after hparts id hid
  -- the tables in front and behind are those of the trees in front and behind
  obtain ⟨us, vs, rfl, rfl, hvs⟩ := List.map_eq_append_iff.1 hparts
  obtain ⟨t, vs, rfl, rfl, rfl⟩ := List.map_eq_cons_iff.1 hvs
  rw [count_ofTree, Nat.add_lt_add_iff_right] at hid
  have hrow : id < (rowsFromList 0 t.children).length := by
    rwa [Numbering.length_rowsFromList]
  refine ⟨(rowsFromList 0 t.children)[id], ?_, ?_⟩
  · rw [row?_below_ofTree hid, List.getElem?_eq_getElem hrow]
  · rw [inner_map_ofTree, List.flatMap_append, List.flatMap_cons, row?_between_ofTree _ _ _ hid,
      List.getElem?_eq_getElem hrow, Option.map_some]

end Table

end AccessGraph
