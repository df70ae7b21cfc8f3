/-!
# Ordered labelled trees

* `Tree` : a label and the children in order, each with the kind of the edge that leads to it.
* `Tree.size` : the number of nodes, by recursion.
* `Tree.count` : the same number, counted with a list of trees still to visit, so that the depth of
  a tree is not limited by the depth of recursion; `Tree.count_eq_size`.
-/

namespace AccessGraph

/-- The kinds of edges. -/
inductive EdgeKind where
  /-- A scope or a variable lies directly inside a scope. -/
  | structural
  deriving DecidableEq, Repr

namespace EdgeKind

/-- The number that stands for a kind in a buffer. -/
def tag : EdgeKind → Int32
  | .structural => 0

/-- The name of a kind. -/
def name : EdgeKind → String
  | .structural => "structural"

end EdgeKind

/-- An ordered tree with labels. -/
inductive Tree where
  | node (label : String) (children : List (EdgeKind × Tree))
  deriving Repr

namespace Tree

/-- The label of the root of a tree. -/
def label : Tree → String
  | node label _ => label

/-- The children of the root of a tree, in order. -/
def children : Tree → List (EdgeKind × Tree)
  | node _ children => children

/-- The tree of one node. -/
def leaf (label : String) : Tree := node label []

/-- The label of the node above all loops. -/
def rootLabel : String := "root"

/-- The label of every loop. -/
def loopLabel : String := "for"

/-- The root is the only node. -/
def isLeaf (t : Tree) : Bool := t.children.isEmpty

/-- The child at a position. -/
def child? (t : Tree) (index : Nat) : Option Tree := t.children[index]?.map (·.2)

mutual

/-- Equality of trees is decided label by label. -/
def decEq : (t u : Tree) → Decidable (t = u)
  | node l ts, node m us =>
    match instDecidableEqString l m, decEqList ts us with
    | isTrue hl, isTrue hts => isTrue (by rw [hl, hts])
    | isFalse hl, _ => isFalse fun h => hl (node.inj h).1
    | _, isFalse hts => isFalse fun h => hts (node.inj h).2

/-- Equality of lists of trees is decided tree by tree. -/
def decEqList : (ts us : List (EdgeKind × Tree)) → Decidable (ts = us)
  | [], [] => isTrue rfl
  | [], _ :: _ => isFalse nofun
  | _ :: _, [] => isFalse nofun
  | (k, t) :: ts, (l, u) :: us =>
    match decEq t u, decEqList ts us with
    | isTrue ht, isTrue hts => isTrue (by cases k; cases l; rw [ht, hts])
    | isFalse ht, _ => isFalse fun h => ht (congrArg Prod.snd (List.cons.inj h).1)
    | _, isFalse hts => isFalse fun h => hts (List.cons.inj h).2

end

instance : DecidableEq Tree := decEq

mutual

/-- The number of nodes of a tree. -/
def size : Tree → Nat
  | node _ children => 1 + sizeList children

/-- The number of nodes of several trees. -/
def sizeList : List (EdgeKind × Tree) → Nat
  | [] => 0
  | (_, t) :: ts => size t + sizeList ts

end

theorem sizeList_append (ts us : List (EdgeKind × Tree)) :
    sizeList (ts ++ us) = sizeList ts + sizeList us := by
  induction ts with
  | nil => simp [sizeList]
  | cons t ts ih => simp [sizeList, ih, Nat.add_assoc]

/-- Count the nodes of the trees in a list on top of the nodes counted so far. -/
def countList (counted : Nat) : List (EdgeKind × Tree) → Nat
  | [] => counted
  | (_, node _ children) :: pending => countList (counted + 1) (children ++ pending)
termination_by pending => sizeList pending
decreasing_by simp [sizeList, sizeList_append, size]

theorem countList_eq (counted : Nat) (pending : List (EdgeKind × Tree)) :
    countList counted pending = counted + sizeList pending := by
  fun_induction countList counted pending with
  | case1 counted => simp [sizeList]
  | case2 counted kind label children pending ih =>
    simp only [ih, sizeList, sizeList_append, size]
    omega

/-- The number of nodes of a tree, counted without recursion on its depth. -/
def count (t : Tree) : Nat := countList 0 [(.structural, t)]

theorem count_eq_size (t : Tree) : t.count = t.size := by
  simp [count, countList_eq, sizeList]

end Tree

end AccessGraph
