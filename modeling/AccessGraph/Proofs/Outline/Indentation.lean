import AccessGraph.Proofs.Outline.Unfolding
/-!
# The indentation tells the tree

In an outline only the blanks in front of a line tell where a node hangs. Where no label begins with a
blank of its own, the level of each line can be counted, and a list of labels in pre-order with levels is
that of one tree: the nodes below a node go on until a level is reached that is not deeper.

* `Outline.Plain` : a label that holds no newline and does not begin with a space.
* `Outline.readLine_line` : the level and the label of a line are read back.
* `Tree.Ascends` : what follows the nodes on some level lies above it.
* `Tree.preorder_inj` : no two trees have the same labels in pre-order, whatever follows.
* `Outline.treeSection_eq_iff` : **the lines behind `tree:` tell the tree.**
-/

namespace AccessGraph

namespace Outline

/-! ### Lines -/

/-- The label holds no newline, and does not begin with a space. -/
structure Plain (label : String) : Prop where
  /-- It stands on one line. -/
  newline : '\n' ∉ label.toList
  /-- It cannot be taken for one on another level. -/
  space : label.toList.head? ≠ some ' '

instance (label : String) : Decidable (Plain label) :=
  decidable_of_iff ('\n' ∉ label.toList ∧ label.toList.head? ≠ some ' ')
    ⟨fun h => ⟨h.1, h.2⟩, fun h => ⟨h.newline, h.space⟩⟩

/-- The level and the label that a line shows. -/
def readLine (text : String) : Nat × String :=
  ((text.toList.takeWhile (· = ' ')).length, String.ofList (text.toList.dropWhile (· = ' ')))

/-- The level and the label of a line are read back. -/
theorem readLine_line (depth : Nat) {label : String} (h : Plain label) :
    readLine (line depth label) = (depth, label) := by
  have hspaces : ∀ c ∈ List.replicate depth ' ', decide (c = ' ') = true := fun c hc =>
    decide_eq_true (List.eq_of_mem_replicate hc)
  have hlabel : label.toList.takeWhile (· = ' ') = [] ∧
      label.toList.dropWhile (· = ' ') = label.toList := by
    have hspace := h.space
    cases hchars : label.toList with
    | nil => exact ⟨rfl, rfl⟩
    | cons c cs =>
      have hc : c ≠ ' ' := fun heq => hspace (by rw [hchars, heq]; rfl)
      simp [hc]
  have htext : (line depth label).toList = List.replicate depth ' ' ++ label.toList := by
    simp [line]
  rw [readLine, htext, List.takeWhile_append_of_pos hspaces, List.dropWhile_append_of_pos hspaces,
    hlabel.1, hlabel.2, List.append_nil, List.length_replicate, String.ofList_toList]

end Outline

/-! ### Levels -/

namespace Tree

/-- These labels do not begin on some level or below it. -/
def Ascends (depth : Nat) (rest : List (Nat × String)) : Prop := ∀ p, rest.head? = some p → p.1 < depth

theorem ascends_nil (depth : Nat) : Ascends depth [] := nofun

/-- What follows the children of a node lies above their level. -/
theorem Ascends.preorderList {depth : Nat} {rest : List (Nat × String)} (h : Ascends depth rest)
    (ts : List (EdgeKind × Tree)) : Ascends (depth + 1) (preorderList depth ts ++ rest) := by
  intro p hp
  cases ts with
  | nil => exact Nat.lt_succ_of_lt (h p hp)
  | cons t ts =>
    obtain ⟨_, label, children⟩ := t
    obtain rfl : (depth, label) = p := Option.some.inj hp
    exact Nat.lt_succ_self depth

mutual

/-- **No two trees have the same labels in pre-order**, whatever follows above their level. -/
theorem preorder_inj {depth : Nat} {rest rest' : List (Nat × String)} :
    ∀ {t u : Tree}, Ascends (depth + 1) rest → Ascends (depth + 1) rest' →
      t.preorder depth ++ rest = u.preorder depth ++ rest' → t = u ∧ rest = rest'
  | .node label children, .node label' children', hrest, hrest', heq => by
    obtain ⟨hlabel, heq⟩ := List.cons.inj heq
    obtain ⟨hchildren, hrests⟩ := preorderList_inj hrest hrest' heq
    exact ⟨by rw [(Prod.mk.inj hlabel).2, hchildren], hrests⟩

theorem preorderList_inj {depth : Nat} {rest rest' : List (Nat × String)} :
    ∀ {ts us : List (EdgeKind × Tree)}, Ascends depth rest → Ascends depth rest' →
      preorderList depth ts ++ rest = preorderList depth us ++ rest' → ts = us ∧ rest = rest'
  | [], [], _, _, heq => ⟨rfl, heq⟩
  | [], (_, .node label _) :: _, hrest, _, heq =>
    absurd (hrest (depth, label) (congrArg List.head? heq)) (Nat.lt_irrefl depth)
  | (_, .node label _) :: _, [], _, hrest', heq =>
    absurd (hrest' (depth, label) (congrArg List.head? heq.symm)) (Nat.lt_irrefl depth)
  | (kind, t) :: ts, (kind', u) :: us, hrest, hrest', heq => by
    rw [preorderList, preorderList, List.append_assoc, List.append_assoc] at heq
    obtain ⟨hfirst, heq⟩ := preorder_inj (hrest.preorderList ts) (hrest'.preorderList us) heq
    obtain ⟨hothers, hrests⟩ := preorderList_inj hrest hrest' heq
    cases kind
    cases kind'
    exact ⟨by rw [hfirst, hothers], hrests⟩

end

end Tree

/-! ### Outlines -/

namespace Outline

mutual

/-- The labels of a tree are those of the table that describes it. -/
theorem mem_labels_of_preorder {t : Table} {depth id : Nat} {p : Nat × String} : ∀ {u : Tree},
    t.Describes id u → p ∈ u.preorder depth → p.2 ∈ t.labels
  | .node label children, h, hp => by
    obtain ⟨hlabel, -, ids, -, hchildren⟩ := h
    rcases List.mem_cons.1 hp with rfl | hp
    · exact List.mem_of_getElem? hlabel
    · exact mem_labels_of_preorderList hchildren hp

theorem mem_labels_of_preorderList {t : Table} {depth : Nat} {p : Nat × String} :
    ∀ {ids : List Nat} {us : List (EdgeKind × Tree)}, t.DescribesList ids us →
      p ∈ Tree.preorderList depth us → p.2 ∈ t.labels
  | [], [], _, hp => absurd hp List.not_mem_nil
  | _ :: _, (_, u) :: us, h, hp => by
    rcases List.mem_append.1 hp with hp | hp
    · exact mem_labels_of_preorder h.1 hp
    · exact mem_labels_of_preorderList h.2 hp

end

/-- The labels of a tree with their levels are read back from its lines. -/
theorem map_readLine_lines {u : Tree} (h : ∀ label ∈ (Table.ofTree u).labels, Plain label) :
    u.lines.map readLine = u.preorder 0 := by
  have hdescribes := Table.describes_of_treeAt? (Table.tree?_ofTree u)
  rw [Tree.lines, List.map_map]
  refine (List.map_congr_left fun p hp => ?_).trans (List.map_id _)
  exact readLine_line p.1 (h p.2 (mem_labels_of_preorder hdescribes hp))

/-- **The lines behind `tree:` tell the tree**, if no label holds a newline or begins with a space. -/
theorem treeSection_eq_iff {t u : Tree} (ht : ∀ label ∈ (Table.ofTree t).labels, Plain label)
    (hu : ∀ label ∈ (Table.ofTree u).labels, Plain label) (layout layout' : Layout) :
    treeSection ((Table.ofTree t).outline layout) = treeSection ((Table.ofTree u).outline layout') ↔
      t = u := by
  rw [treeSection_outline layout fun label hlabel => (ht label hlabel).newline,
    treeSection_outline layout' fun label hlabel => (hu label hlabel).newline,
    treeLines_ofTree, treeLines_ofTree]
  constructor
  · intro hlines
    have hpreorder : t.preorder 0 ++ [] = u.preorder 0 ++ [] := by
      rw [← map_readLine_lines ht, ← map_readLine_lines hu, hlines]
    exact (Tree.preorder_inj (Tree.ascends_nil 1) (Tree.ascends_nil 1) hpreorder).1
  · rintro rfl
    rfl

/-- A tree with awkward labels, the last of which hangs below the root, two levels up from the one
before. -/
def dropped : Tree :=
  .node "tree:" [(.structural, .node "" [(.structural, .node "" [(.structural, .leaf "for ")])]),
    (.structural, .leaf "tree:")]

/-- The same labels, the last of which hangs one level further in. -/
def halfway : Tree :=
  .node "tree:" [(.structural, .node "" [(.structural, .node "" [(.structural, .leaf "for ")]),
    (.structural, .leaf "tree:")])]

theorem treeSection_eq_iff_dropped :
    (∀ label ∈ (Table.ofTree dropped).labels, Plain label) ∧
      (∀ label ∈ (Table.ofTree halfway).labels, Plain label) ∧
      ∀ layout layout', treeSection ((Table.ofTree dropped).outline layout) ≠
        treeSection ((Table.ofTree halfway).outline layout') := by
  have hdropped : ∀ label ∈ (Table.ofTree dropped).labels, Plain label := by
    rw [Table.ofTree_eq]
    decide
  have hhalfway : ∀ label ∈ (Table.ofTree halfway).labels, Plain label := by
    rw [Table.ofTree_eq]
    decide
  refine ⟨hdropped, hhalfway, fun layout layout' heq => ?_⟩
  exact absurd ((treeSection_eq_iff hdropped hhalfway layout layout').1 heq) (by decide)

end Outline

end AccessGraph
