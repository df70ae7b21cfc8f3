import AccessGraph.Proofs.Table.Postorder
/-!
# The tree that a table describes

`Table.tree?` follows the rows of a table only so far. Without a bound, the rows may describe a tree
below a node, and they never describe two.

* `Table.Describes` : the rows, followed from a node on, describe a tree.
* `Table.describes_of_treeAt?` : a tree that is found in the rows is described by them.
* `Table.Describes.unique` : **no two trees are described below one node.**
* `Table.ofTree_faithful` : **the table of a tree describes that tree and no other one**, so that no
  two trees have the same table.
-/

namespace AccessGraph

namespace Table

mutual

/-- The rows of a table, followed from the node of number `id` on, describe a tree. -/
def Describes (t : Table) (id : Nat) : Tree → Prop
  | .node label children =>
    t.labels[id]? = some label ∧ t.edges[id]? = some (children.map (·.1)) ∧
      ∃ ids, t.children[id]? = some ids ∧ DescribesList t ids children

/-- The rows of a table, followed from several nodes on, describe one tree each. -/
def DescribesList (t : Table) : List Nat → List (EdgeKind × Tree) → Prop
  | [], [] => True
  | id :: ids, (_, child) :: children => Describes t id child ∧ DescribesList t ids children
  | _, _ => False

end

/-! ### What is found is described -/

/-- Several trees that are found are described, if each one is. -/
theorem describesList_of_mapM {t : Table} {levels : Nat} {ids : List Nat} {kinds : List EdgeKind}
    {subtrees : List Tree} (hlength : kinds.length = ids.length)
    (hfound : ids.mapM (t.treeAt? levels) = some subtrees)
    (h : ∀ id u, t.treeAt? levels id = some u → t.Describes id u) :
    (kinds.zip subtrees).map (·.1) = kinds ∧ t.DescribesList ids (kinds.zip subtrees) := by
  induction ids generalizing kinds subtrees with
  | nil =>
    obtain rfl : kinds = [] := List.length_eq_zero_iff.1 hlength
    exact ⟨rfl, trivial⟩
  | cons id ids ih =>
    obtain _ | ⟨kind, kinds⟩ := kinds
    · simp at hlength
    rw [List.mapM_cons] at hfound
    obtain ⟨first, hfirst, hfound⟩ := Option.bind_eq_some_iff.1 hfound
    obtain ⟨others, hothers, hfound⟩ := Option.bind_eq_some_iff.1 hfound
    obtain rfl : first :: others = subtrees := Option.some.inj hfound
    obtain ⟨hkinds, hlist⟩ := ih (Nat.succ.inj hlength) hothers
    refine ⟨?_, h id first hfirst, hlist⟩
    exact congrArg (kind :: ·) hkinds

/-- **A tree that is found in the rows is described by them**, whatever the bound. -/
theorem describes_of_treeAt? {t : Table} {levels id : Nat} {u : Tree}
    (h : t.treeAt? levels id = some u) : t.Describes id u := by
  induction levels generalizing id u with
  | zero => simp [treeAt?] at h
  | succ levels ih =>
    rw [treeAt?] at h
    obtain ⟨label, hlabel, h⟩ := Option.bind_eq_some_iff.1 h
    obtain ⟨kinds, hkinds, h⟩ := Option.bind_eq_some_iff.1 h
    obtain ⟨ids, hids, h⟩ := Option.bind_eq_some_iff.1 h
    split at h
    · rename_i hlength
      obtain ⟨subtrees, hsubtrees, h⟩ := Option.bind_eq_some_iff.1 h
      obtain rfl : .node label (kinds.zip subtrees) = u := Option.some.inj h
      obtain ⟨hedges, hlist⟩ := describesList_of_mapM hlength hsubtrees fun id u => ih
      exact ⟨hlabel, hkinds.trans (congrArg some hedges.symm), ids, hids, hlist⟩
    · simp at h

/-! ### No two trees -/

mutual

/-- **No two trees are described below one node.** -/
theorem Describes.unique {t : Table} {id : Nat} :
    ∀ {u v : Tree}, t.Describes id u → t.Describes id v → u = v
  | .node label children, .node label' children', hu, hv => by
    obtain ⟨hlabel, hedges, ids, hids, hlist⟩ := hu
    obtain ⟨hlabel', hedges', ids', hids', hlist'⟩ := hv
    obtain rfl : label = label' := Option.some.inj (hlabel.symm.trans hlabel')
    obtain rfl : ids = ids' := Option.some.inj (hids.symm.trans hids')
    have hkinds : children.map (·.1) = children'.map (·.1) :=
      Option.some.inj (hedges.symm.trans hedges')
    rw [DescribesList.unique hlist hlist' hkinds]

theorem DescribesList.unique {t : Table} : ∀ {ids : List Nat} {us vs : List (EdgeKind × Tree)},
    t.DescribesList ids us → t.DescribesList ids vs → us.map (·.1) = vs.map (·.1) → us = vs
  | [], [], [], _, _, _ => rfl
  | id :: ids, (kind, u) :: us, (kind', v) :: vs, hu, hv, hkinds => by
    obtain ⟨hkind, hkinds⟩ := List.cons.inj hkinds
    have hfirst : u = v := Describes.unique hu.1 hv.1
    have hrest : us = vs := DescribesList.unique hu.2 hv.2 hkinds
    rw [hfirst, hrest, show kind = kind' from hkind]

end

/-- **The table of a tree describes that tree and no other one**: rebuilding gives the tree back,
and it is the only tree that the rows describe. So no two trees have the same table. -/
theorem ofTree_faithful :
    (∀ t : Tree, (Table.ofTree t).tree? = some t ∧
      ∀ u, (Table.ofTree t).Describes (Table.ofTree t).rootId u ↔ u = t) ∧
    Function.Injective Table.ofTree := by
  constructor
  · intro t
    have hfound : (Table.ofTree t).tree? = some t := tree?_ofTree t
    have hdescribes : (Table.ofTree t).Describes (Table.ofTree t).rootId t :=
      describes_of_treeAt? hfound
    refine ⟨hfound, fun u => ⟨fun hu => hu.unique hdescribes, ?_⟩⟩
    rintro rfl
    exact hdescribes
  · intro t u h
    have hfound : (Table.ofTree u).tree? = some t := h ▸ tree?_ofTree t
    exact Option.some.inj (hfound.symm.trans (tree?_ofTree u))

end Table

end AccessGraph
