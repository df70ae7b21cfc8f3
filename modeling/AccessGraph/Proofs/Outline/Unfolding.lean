import AccessGraph.Proofs.Outline.Lines
import AccessGraph.Proofs.Table.Contiguous
import Mathlib.Data.List.Perm.Subperm
import Mathlib.Logic.Function.Iterate
/-!
# The tree of an outline is unfolded

The tree is listed by a walk that keeps the nodes to visit in a list. Nothing is marked as visited, so a
node with several parents is listed below each of them, and without a bound on the levels the walk ends
only where no node lies below itself.

* `Outline.Walk`, `Outline.Walk.step` : the walk without a bound, one node at a time.
* `Outline.Unfolds` : the lines of a node and of those below it, by recursion on the rows alone.
* `Table.AcyclicFrom` : no node with a label lies below itself, as far as nodes with labels lead.
* `Outline.Unfolds.exists_iterate` : the walk ends with the lines of the recursion.
* `Outline.Trail.length_lt` : where no node lies below itself, a labelled node has fewer nodes above it
  than there are labels.
* `Tree.preorder` : the labels of a tree in pre-order, each with its level.
* `Outline.treeLines_unfolds` : **the lines of the tree are those of the recursion**, and the walk ends
  with them exactly where no node lies below itself; for a tree they are its labels in pre-order.
-/

namespace AccessGraph

open Relation (ReflTransGen TransGen)

namespace Table

/-- Both nodes have labels, and the second one is a child of the first. -/
def Descends (t : Table) (id child : Nat) : Prop :=
  id < t.count ∧ child < t.count ∧ t.IsChild id child

/-- No node lies below itself that the root leads to through nodes with labels. -/
def AcyclicFrom (t : Table) (root : Nat) : Prop :=
  ∀ id, ReflTransGen t.Descends root id → ¬ TransGen t.Descends id id

end Table

namespace Outline

theorem mem_row_iff {t : Table} {id child : Nat} : child ∈ row t id ↔ t.IsChild id child := by
  unfold row Table.IsChild
  cases t.children[id]? <;> simp

theorem lt_count_of_label {t : Table} {id : Nat} {label : String}
    (h : t.labels[id]? = some label) : id < t.count := (List.getElem?_eq_some_iff.1 h).1

/-! ### The walk without a bound -/

/-- The lines listed so far, the last one first, and the nodes still to visit. -/
structure Walk where
  /-- The lines. -/
  lines : List String
  /-- The nodes to visit. -/
  pending : List Visit

namespace Walk

/-- Visit the first node: without a label it is left out, otherwise its line is listed and its children
come next. -/
def step (t : Table) : Walk → Walk
  | ⟨lines, []⟩ => ⟨lines, []⟩
  | ⟨lines, v :: pending⟩ =>
    match t.labels[v.id]? with
    | none => ⟨lines, pending⟩
    | some label =>
      ⟨line v.depth label :: lines, (row t v.id).map (⟨·, v.depth + 1⟩) ++ pending⟩

theorem step_none {t : Table} {v : Visit} (h : t.labels[v.id]? = none) (lines : List String)
    (pending : List Visit) : step t ⟨lines, v :: pending⟩ = ⟨lines, pending⟩ := by
  simp only [step, h]

theorem step_some {t : Table} {v : Visit} {label : String} (h : t.labels[v.id]? = some label)
    (lines : List String) (pending : List Visit) :
    step t ⟨lines, v :: pending⟩ =
      ⟨line v.depth label :: lines, (row t v.id).map (⟨·, v.depth + 1⟩) ++ pending⟩ := by
  simp only [step, h]

/-- Only the root is to visit. -/
def start (root : Nat) : Walk := ⟨[], [⟨root, 0⟩]⟩

end Walk

/-! ### The recursion -/

mutual

/-- The lines of a node on some level and of those below it: a node without a label has none, and one
with a label has its own line, with the lines of its children behind it. -/
inductive Unfolds (t : Table) : (depth id : Nat) → List String → Prop
  | unlabelled {depth id : Nat} : t.labels[id]? = none → Unfolds t depth id []
  | labelled {depth id : Nat} {label : String} {below : List String} :
      t.labels[id]? = some label → UnfoldsAll t (depth + 1) (row t id) below →
      Unfolds t depth id (line depth label :: below)

/-- The lines of several nodes on one level and of those below them, node by node. -/
inductive UnfoldsAll (t : Table) : (depth : Nat) → (ids : List Nat) → List String → Prop
  | nil {depth : Nat} : UnfoldsAll t depth [] []
  | cons {depth id : Nat} {ids : List Nat} {first others : List String} :
      Unfolds t depth id first → UnfoldsAll t depth ids others →
      UnfoldsAll t depth (id :: ids) (first ++ others)

end

variable {t : Table}

mutual

/-- There is one unfolding at most. -/
theorem Unfolds.unique : ∀ {depth id : Nat} {lines lines' : List String},
    Unfolds t depth id lines → Unfolds t depth id lines' → lines = lines'
  | _, _, _, _, .unlabelled _, .unlabelled _ => rfl
  | _, _, _, _, .unlabelled hnone, .labelled hsome _ => by simp [hnone] at hsome
  | _, _, _, _, .labelled hsome _, .unlabelled hnone => by simp [hnone] at hsome
  | _, _, _, _, .labelled hsome hbelow, .labelled hsome' hbelow' => by
    rw [UnfoldsAll.unique hbelow hbelow', Option.some.inj (hsome.symm.trans hsome')]

theorem UnfoldsAll.unique : ∀ {depth : Nat} {ids : List Nat} {lines lines' : List String},
    UnfoldsAll t depth ids lines → UnfoldsAll t depth ids lines' → lines = lines'
  | _, _, _, _, .nil, .nil => rfl
  | _, _, _, _, .cons hfirst hothers, .cons hfirst' hothers' => by
    rw [Unfolds.unique hfirst hfirst', UnfoldsAll.unique hothers hothers']

end

theorem unfoldsAll_flatMap {depth : Nat} {ids : List Nat} {lines : Nat → List String}
    (h : ∀ id ∈ ids, Unfolds t depth id (lines id)) :
    UnfoldsAll t depth ids (ids.flatMap lines) := by
  induction ids with
  | nil => exact .nil
  | cons id ids ih =>
    exact .cons (h id List.mem_cons_self) (ih fun id hid => h id (List.mem_cons_of_mem _ hid))

mutual

/-- **The walk lists the lines of the first node** and then has the others to visit. -/
theorem Unfolds.exists_iterate {depth id : Nat} {below : List String} (lines : List String)
    (pending : List Visit) : Unfolds t depth id below → ∃ rounds,
      (Walk.step t)^[rounds] ⟨lines, ⟨id, depth⟩ :: pending⟩ = ⟨below.reverse ++ lines, pending⟩
  | .unlabelled hnone => ⟨1, Walk.step_none hnone lines pending⟩
  | @Unfolds.labelled _ _ _ label below hsome hbelow => by
    obtain ⟨rounds, hrounds⟩ := hbelow.exists_iterate (line depth label :: lines) pending
    refine ⟨rounds + 1, ?_⟩
    rw [Function.iterate_succ_apply, Walk.step_some hsome, hrounds, List.reverse_cons,
      List.append_assoc]
    rfl

theorem UnfoldsAll.exists_iterate {depth : Nat} {ids : List Nat} {below : List String}
    (lines : List String) (pending : List Visit) : UnfoldsAll t depth ids below → ∃ rounds,
      (Walk.step t)^[rounds] ⟨lines, ids.map (⟨·, depth⟩) ++ pending⟩ =
        ⟨below.reverse ++ lines, pending⟩
  | .nil => ⟨0, rfl⟩
  | @UnfoldsAll.cons _ _ _ ids first others hfirst hothers => by
    obtain ⟨rounds, hrounds⟩ := hfirst.exists_iterate lines (ids.map (⟨·, depth⟩) ++ pending)
    obtain ⟨rounds', hrounds'⟩ := hothers.exists_iterate (first.reverse ++ lines) pending
    refine ⟨rounds' + rounds, ?_⟩
    rw [Function.iterate_add_apply, List.map_cons, List.cons_append, hrounds, hrounds',
      List.reverse_append, List.append_assoc]

end

/-- Where the walk comes to an end, all nodes to visit have been unfolded. -/
theorem exists_unfolds_of_iterate {rounds : Nat} {w : Walk}
    (h : ((Walk.step t)^[rounds] w).pending = []) :
    ∀ v ∈ w.pending, ∃ below, Unfolds t v.depth v.id below := by
  induction rounds generalizing w with
  | zero =>
    intro v hv
    rw [Function.iterate_zero_apply] at h
    simp [h] at hv
  | succ rounds ih =>
    obtain ⟨lines, pending⟩ := w
    rw [Function.iterate_succ_apply] at h
    cases pending with
    | nil => exact fun v hv => absurd hv List.not_mem_nil
    | cons v pending =>
      cases hlabel : t.labels[v.id]? with
      | none =>
        rw [Walk.step_none hlabel] at h
        intro u hu
        rcases List.mem_cons.1 hu with rfl | hu
        · exact ⟨[], .unlabelled hlabel⟩
        · exact ih h u hu
      | some label =>
        rw [Walk.step_some hlabel] at h
        -- the children have been unfolded first, and then the others
        have hvisits := ih h
        intro u hu
        rcases List.mem_cons.1 hu with rfl | hu
        · have hchildren : ∀ child ∈ row t u.id, ∃ below, Unfolds t (u.depth + 1) child below :=
            fun child hchild =>
              hvisits ⟨child, u.depth + 1⟩ (List.mem_append_left _ (List.mem_map_of_mem hchild))
          choose! below hbelow using hchildren
          exact ⟨_, .labelled hlabel (unfoldsAll_flatMap hbelow)⟩
        · exact hvisits u (List.mem_append_right _ hu)

/-! ### Nodes below themselves -/

mutual

/-- What is unfolded ends somewhere, however one goes down. -/
theorem Unfolds.acc : ∀ {depth id : Nat} {below : List String}, Unfolds t depth id below →
    Acc (fun child id => t.Descends id child) id
  | _, id, _, .unlabelled hnone => by
    refine .intro id fun child hchild => ?_
    exact absurd hchild.1 (Nat.not_lt.2 (List.getElem?_eq_none_iff.1 hnone))
  | _, id, _, .labelled _ hbelow =>
    .intro id fun child hchild => hbelow.acc child (mem_row_iff.2 hchild.2.2)

theorem UnfoldsAll.acc : ∀ {depth : Nat} {ids : List Nat} {below : List String},
    UnfoldsAll t depth ids below → ∀ id ∈ ids, Acc (fun child id => t.Descends id child) id
  | _, _, _, .nil => nofun
  | _, _, _, .cons hfirst hothers => by
    have hacc := hfirst.acc
    have hall := hothers.acc
    intro id hid
    rcases List.mem_cons.1 hid with rfl | hid
    · exact hacc
    · exact hall id hid

end

theorem not_below_of_acc {id : Nat} (h : Acc (fun child id => t.Descends id child) id) :
    ¬ TransGen t.Descends id id := by
  induction h with
  | intro id _ ih =>
    intro hbelow
    obtain ⟨child, hchild, hback⟩ := TransGen.head'_iff.1 hbelow
    exact ih child hchild (TransGen.tail' hback hchild)

/-- **Where there is an unfolding, no node lies below itself.** -/
theorem Unfolds.acyclicFrom {depth root : Nat} {below : List String}
    (h : Unfolds t depth root below) : t.AcyclicFrom root := by
  intro id hid
  have hacc : Acc (fun child id => t.Descends id child) id := by
    induction hid with
    | refl => exact h.acc
    | tail _ hstep ih => exact ih.inv hstep
  exact not_below_of_acc hacc

/-- The nodes above a node on a way from the root down to it, the nearest first. All of them have
labels. -/
inductive Trail (t : Table) (root : Nat) : (above : List Nat) → (id : Nat) → Prop
  | root : Trail t root [] root
  | child {above : List Nat} {id child : Nat} : Trail t root above id → id < t.count →
      t.IsChild id child → Trail t root (id :: above) child

namespace Trail

variable {root id : Nat} {above : List Nat}

/-- The root leads to each node of the trail, and each of them leads to its end. -/
theorem descends (h : Trail t root above id) (hid : id < t.count) :
    ReflTransGen t.Descends root id ∧ ∀ a ∈ above, a < t.count ∧ TransGen t.Descends a id := by
  induction h with
  | root => exact ⟨.refl, nofun⟩
  | @child above parent id _ hparent hchild ih =>
    obtain ⟨hroot, habove⟩ := ih hparent
    have hstep : t.Descends parent id := ⟨hparent, hid, hchild⟩
    refine ⟨hroot.tail hstep, fun a ha => ?_⟩
    rcases List.mem_cons.1 ha with rfl | ha
    · exact ⟨hparent, .single hstep⟩
    · exact ⟨(habove a ha).1, (habove a ha).2.tail hstep⟩

/-- No node stands on a trail twice. -/
theorem nodup (hacyclic : t.AcyclicFrom root) (h : Trail t root above id) (hid : id < t.count) :
    (id :: above).Nodup := by
  induction h with
  | root => exact List.nodup_singleton root
  | child htrail hparent hchild ih =>
    refine List.nodup_cons.2 ⟨fun hmem => ?_, ih hparent⟩
    obtain ⟨hroot, habove⟩ := (htrail.child hparent hchild).descends hid
    exact hacyclic _ hroot (habove _ hmem).2

/-- **A trail to a node with a label is shorter than the list of labels.** -/
theorem length_lt (hacyclic : t.AcyclicFrom root) (h : Trail t root above id) (hid : id < t.count) :
    above.length < t.count := by
  have hsubset : id :: above ⊆ List.range t.count := by
    intro a ha
    rcases List.mem_cons.1 ha with rfl | ha
    · exact List.mem_range.2 hid
    · exact List.mem_range.2 ((h.descends hid).2 a ha).1
  have hlength := (List.subperm_of_subset (h.nodup hacyclic hid) hsubset).length_le
  rwa [List.length_cons, List.length_range] at hlength

/-- **So the recursion comes to its end before the levels do.** -/
theorem unfolds (hacyclic : t.AcyclicFrom root) (levels : Nat) (h : Trail t root above id)
    (hlevels : t.count - above.length = levels) :
    Unfolds t above.length id (unfolding t levels above.length id) := by
  induction levels generalizing above id with
  | zero =>
    refine .unlabelled (List.getElem?_eq_none_iff.2 (Nat.not_lt.1 fun hid => ?_))
    have := h.length_lt hacyclic hid
    omega
  | succ levels ih =>
    cases hlabel : t.labels[id]? with
    | none =>
      rw [unfolding_none hlabel]
      exact .unlabelled hlabel
    | some label =>
      have hid := lt_count_of_label hlabel
      rw [unfolding_some hlabel]
      refine .labelled hlabel (unfoldsAll_flatMap fun child hchild => ?_)
      exact ih (h.child hid (mem_row_iff.1 hchild)) (by rw [List.length_cons]; omega)

end Trail

/-- Where no node lies below itself, the lines of the tree are those of the recursion. -/
theorem unfolds_treeLines {root : Nat} (h : t.AcyclicFrom root) :
    Unfolds t 0 root (treeLines t root) := by
  rw [treeLines_eq_unfolding]
  exact Trail.root.unfolds h t.count (Nat.sub_zero _)

end Outline

/-! ### Trees -/

namespace Tree

mutual

/-- The labels of a tree in pre-order, each with its level. -/
def preorder (depth : Nat) : Tree → List (Nat × String)
  | .node label children => (depth, label) :: preorderList (depth + 1) children

/-- The labels of several trees, tree by tree. -/
def preorderList (depth : Nat) : List (EdgeKind × Tree) → List (Nat × String)
  | [] => []
  | (_, t) :: ts => preorder depth t ++ preorderList depth ts

end

mutual

theorem length_preorder (depth : Nat) : ∀ t : Tree, (t.preorder depth).length = t.size
  | .node label children => by
    rw [preorder, List.length_cons, length_preorderList (depth + 1) children, size, Nat.add_comm]

theorem length_preorderList (depth : Nat) :
    ∀ ts : List (EdgeKind × Tree), (preorderList depth ts).length = sizeList ts
  | [] => rfl
  | (_, t) :: ts => by
    rw [preorderList, List.length_append, length_preorder depth t, length_preorderList depth ts,
      sizeList]

end

/-- The lines that show a tree. -/
def lines (t : Tree) : List String := (t.preorder 0).map fun (depth, label) => Outline.line depth label

end Tree

namespace Outline

mutual

/-- **Where the rows describe a tree, its labels in pre-order are the unfolding.** -/
theorem unfolds_of_describes {t : Table} (depth : Nat) {id : Nat} : ∀ {u : Tree},
    t.Describes id u →
      Unfolds t depth id ((u.preorder depth).map fun (depth, label) => line depth label)
  | .node label children, h => by
    obtain ⟨hlabel, -, ids, hids, hchildren⟩ := h
    have hrow : row t id = ids := by rw [row, hids, Option.getD_some]
    refine .labelled hlabel ?_
    rw [hrow]
    exact unfoldsAll_of_describes (depth + 1) hchildren

theorem unfoldsAll_of_describes {t : Table} (depth : Nat) :
    ∀ {ids : List Nat} {us : List (EdgeKind × Tree)}, t.DescribesList ids us →
      UnfoldsAll t depth ids ((Tree.preorderList depth us).map fun (depth, label) => line depth label)
  | [], [], _ => .nil
  | id :: ids, (_, u) :: us, h => by
    rw [Tree.preorderList, List.map_append]
    exact .cons (unfolds_of_describes depth h.1) (unfoldsAll_of_describes depth h.2)

end

/-- **The lines of the tree of a table are the labels of the tree in pre-order.** -/
theorem treeLines_ofTree (u : Tree) :
    treeLines (Table.ofTree u) (Table.ofTree u).rootId = u.lines := by
  have hdescribes := Table.describes_of_treeAt? (Table.tree?_ofTree u)
  have hunfolds : Unfolds (Table.ofTree u) 0 (Table.ofTree u).rootId u.lines :=
    unfolds_of_describes 0 hdescribes
  exact (unfolds_treeLines hunfolds.acyclicFrom).unique hunfolds

/-- **The lines of the tree are those of the recursion.** The walk without a bound comes to an end
exactly where no node lies below itself, and it ends with these lines. The tree of a table has one line
for each node, which are its labels in pre-order, and where no label holds a newline they are what an
outline shows behind `tree:`. -/
theorem treeLines_unfolds :
    (∀ (t : Table) (root : Nat),
      ((∃ rounds, ((Walk.step t)^[rounds] (Walk.start root)).pending = []) ↔ t.AcyclicFrom root) ∧
      (t.AcyclicFrom root →
        (∃ rounds, (Walk.step t)^[rounds] (Walk.start root) = ⟨(treeLines t root).reverse, []⟩) ∧
        ∀ lines, Unfolds t 0 root lines ↔ lines = treeLines t root)) ∧
      ∀ u : Tree, treeLines (Table.ofTree u) (Table.ofTree u).rootId = u.lines ∧
        u.lines.length = (Table.ofTree u).count ∧
        ((∀ label ∈ (Table.ofTree u).labels, '\n' ∉ label.toList) → ∀ layout,
          treeSection ((Table.ofTree u).outline layout) = u.lines) := by
  have hwalk : ∀ (t : Table) (root : Nat), t.AcyclicFrom root →
      ∃ rounds, (Walk.step t)^[rounds] (Walk.start root) = ⟨(treeLines t root).reverse, []⟩ := by
    intro t root hacyclic
    obtain ⟨rounds, hrounds⟩ := (unfolds_treeLines hacyclic).exists_iterate [] []
    rw [List.append_nil] at hrounds
    exact ⟨rounds, hrounds⟩
  refine ⟨fun t root => ⟨⟨?_, fun hacyclic => ?_⟩, fun hacyclic => ⟨hwalk t root hacyclic, ?_⟩⟩,
    fun u => ⟨treeLines_ofTree u, ?_, fun hlabels layout => ?_⟩⟩
  · rintro ⟨rounds, hrounds⟩
    obtain ⟨below, hbelow⟩ := exists_unfolds_of_iterate hrounds ⟨root, 0⟩ List.mem_cons_self
    exact hbelow.acyclicFrom
  · obtain ⟨rounds, hrounds⟩ := hwalk t root hacyclic
    exact ⟨rounds, by rw [hrounds]⟩
  · intro lines
    constructor
    · exact fun hlines => hlines.unique (unfolds_treeLines hacyclic)
    · rintro rfl
      exact unfolds_treeLines hacyclic
  · rw [Tree.lines, List.length_map, Tree.length_preorder, Table.count_ofTree_eq_size]
  · rw [treeSection_outline layout hlabels, treeLines_ofTree]

/-- A table with a node below two parents, one of which has it twice, a child without a label, a node
without a row, and a node below itself to which nothing leads. -/
def shared : Table where
  rootId := 0
  children := [[1, 7, 3, 1], [3], [2]]
  edges := []
  labels := ["top", "twice", "self", "end"]

/-- A loop with a leaf without a name. -/
def nameless : Tree :=
  .node "root" [(.structural, .node "for" [(.structural, .leaf "i"), (.structural, .leaf "")])]

theorem treeLines_unfolds_shared :
    shared.AcyclicFrom 0 ∧
      (∃ rounds, (Walk.step shared)^[rounds] (Walk.start 0) =
        ⟨["top", " twice", "  end", " end", " twice", "  end"].reverse, []⟩) ∧
      (∀ lines, Unfolds shared 0 0 lines ↔
        lines = ["top", " twice", "  end", " end", " twice", "  end"]) ∧
      (∀ label ∈ (Table.ofTree nameless).labels, '\n' ∉ label.toList) ∧
      ∀ layout, treeSection ((Table.ofTree nameless).outline layout) = ["root", " for", "  i", "  "] := by
  obtain ⟨htables, htrees⟩ := treeLines_unfolds
  obtain ⟨hiff, hlines⟩ := htables shared 0
  have hacyclic : shared.AcyclicFrom 0 := hiff.1 ⟨7, by decide⟩
  have hshared : treeLines shared 0 = ["top", " twice", "  end", " end", " twice", "  end"] := by
    rw [treeLines_eq_unfolding]
    decide
  obtain ⟨hwalk, hunfolds⟩ := hlines hacyclic
  rw [hshared] at hwalk hunfolds
  have hlabels : ∀ label ∈ (Table.ofTree nameless).labels, '\n' ∉ label.toList := by
    rw [Table.ofTree_eq]
    decide
  refine ⟨hacyclic, hwalk, hunfolds, hlabels, fun layout => ?_⟩
  rw [(htrees nameless).2.2 hlabels layout]
  decide

end Outline

end AccessGraph
