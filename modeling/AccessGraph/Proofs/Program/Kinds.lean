import AccessGraph.Proofs.Extraction
import AccessGraph.Proofs.Table.Kinds
import AccessGraph.Proofs.Text.ByteOrder
/-!
# What the nodes of an extracted graph stand for

The graph of a program is made of loops, accesses and variables only, and these lie inside of each
other in fixed ways.

* `Stmt.nodeFits_nodes` : the nodes of a statement are loops, and inside of a loop accesses as well.
* `Stmt.hasKind_graph` : the nodes of the graph of a program have kinds that fit together.
* `Stmt.extract_kinds` : **the nodes of every extracted table have kinds that fit together.**
-/

namespace AccessGraph

open Word (limit)

/-! ### Variables, accesses and loops -/

namespace Tree

/-- Leaves are variables, in front of trees that have some kinds. -/
theorem haveKinds_leaves {leaves : List String} {hanging : List Tree} {kinds : List NodeKind}
    (h : HaveKinds kinds (hanging.map (EdgeKind.structural, ·))) :
    HaveKinds (leaves.map (fun _ => .var) ++ kinds)
      ((leaves.map Tree.leaf ++ hanging).map (EdgeKind.structural, ·)) := by
  induction leaves with
  | nil => exact h
  | cons name leaves ih =>
    have hleaf : (Tree.leaf name).HasKind .var := ⟨[], rfl, trivial⟩
    exact ⟨hleaf, ih⟩

/-- The tree of a scope: leaves first, and then trees that have some kinds. -/
theorem hasKind_ofScope {kind : NodeKind} {label : String} {leaves : List String}
    {hanging : List Tree} {kinds : List NodeKind}
    (hallows : kind.Allows label (leaves.map (fun _ => .var) ++ kinds)
      (leaves ++ hanging.map (·.label)))
    (hhanging : HaveKinds kinds (hanging.map (EdgeKind.structural, ·))) :
    (Tree.ofScope label leaves hanging).HasKind kind := by
  refine ⟨leaves.map (fun _ => .var) ++ kinds, ?_, haveKinds_leaves hhanging⟩
  simpa [Function.comp_def, Tree.leaf, Tree.label] using hallows

end Tree

/-- The names of increasing variables are in the order of their bytes. -/
theorem Var.Increasing.pairwise_utf8Bytes {vs : List Var} (h : Increasing vs) :
    (vs.map (·.name)).Pairwise fun a b => utf8Bytes a ≤ utf8Bytes b := by
  refine List.pairwise_map.2 (h.imp fun {v w} hbefore => Text.utf8Bytes_le_iff.2 ?_)
  simp only [Var.before, Bool.or_eq_true, Bool.and_eq_true, decide_eq_true_eq,
    beq_iff_eq] at hbefore
  rcases hbefore with hlt | ⟨heq, -⟩
  · exact String.not_lt.1 (String.lt_asymm hlt)
  · exact heq ▸ String.le_refl _

theorem Tree.hasKind_access (buffer : Var) (index : Expr) :
    (Tree.access buffer index).HasKind .memory := by
  have hnames : ((Var.sorted index.reads).map (·.name)).Pairwise
      fun a b => utf8Bytes a ≤ utf8Bytes b :=
    (Var.increasing_sorted index.reads).pairwise_utf8Bytes
  refine hasKind_ofScope ⟨?_, ?_⟩ (show HaveKinds [] [] from trivial)
  · simp
  · rwa [List.map_nil, List.append_nil]

namespace Expr

mutual

/-- The nodes of an expression are accesses. -/
theorem hasKind_accesses : ∀ e : Expr, ∀ t ∈ e.accesses, t.HasKind .memory
  | .var _ => nofun
  | .int _ => nofun
  | .float _ => nofun
  | .binary _ a b => by
    intro t ht
    rw [accesses, List.mem_append] at ht
    rcases ht with ht | ht
    · exact hasKind_accesses a t ht
    · exact hasKind_accesses b t ht
  | .select c u f => by
    intro t ht
    rw [accesses, List.mem_append, List.mem_append] at ht
    rcases ht with (ht | ht) | ht
    · exact hasKind_accesses c t ht
    · exact hasKind_accesses u t ht
    · exact hasKind_accesses f t ht
  | .load buffer index predicate => by
    intro t ht
    rw [accesses, List.mem_cons, List.mem_append] at ht
    rcases ht with rfl | ht | ht
    · exact Tree.hasKind_access buffer index
    · exact hasKind_accesses index t ht
    · exact hasKind_accessesOption predicate t ht
  | .call _ args => hasKind_accessesList args

theorem hasKind_accessesOption : ∀ e : Option Expr, ∀ t ∈ accessesOption e, t.HasKind .memory
  | none => nofun
  | some e => hasKind_accesses e

theorem hasKind_accessesList : ∀ es : List Expr, ∀ t ∈ accessesList es, t.HasKind .memory
  | [] => nofun
  | e :: es => by
    intro t ht
    rw [accessesList, List.mem_append] at ht
    rcases ht with ht | ht
    · exact hasKind_accesses e t ht
    · exact hasKind_accessesList es t ht

end

end Expr

namespace Stmt

/-- A node inside or outside of loops: accesses stand only inside. -/
def NodeFits (inLoop : Bool) (t : Tree) : Prop :=
  t.HasKind .loop ∨ inLoop = true ∧ t.HasKind .memory

/-- A loop around nodes that fit inside of it fits anywhere. -/
theorem nodeFits_loopNode {inLoop : Bool} {v : Var} {nodes : List Tree}
    (h : ∀ t ∈ nodes, NodeFits true t) : NodeFits inLoop (loopNode v nodes) := by
  have hkinds : ∀ t ∈ nodes, ∃ kind, (kind = .loop ∨ kind = .memory) ∧ t.HasKind kind := by
    intro t ht
    rcases h t ht with ht | ⟨-, ht⟩
    · exact ⟨.loop, .inl rfl, ht⟩
    · exact ⟨.memory, .inr rfl, ht⟩
  obtain ⟨kinds, hkinds, hhanging⟩ := Tree.exists_haveKinds hkinds
  exact .inl (Tree.hasKind_ofScope ⟨rfl, kinds, rfl, hkinds⟩ hhanging)

theorem nodeFits_accesses (e : Expr) : ∀ t ∈ e.accesses, NodeFits true t :=
  fun t ht => .inr ⟨rfl, e.hasKind_accesses t ht⟩

/-- Accesses are kept only where they fit. -/
theorem nodeFits_kept {inLoop : Bool} {accesses : List Tree}
    (h : ∀ t ∈ accesses, t.HasKind .memory) : ∀ t ∈ kept inLoop accesses, NodeFits inLoop t := by
  intro t ht
  cases inLoop with
  | false => simp [kept] at ht
  | true => exact .inr ⟨rfl, h t ht⟩

mutual

/-- **The nodes of a statement are loops**, and inside of a loop accesses as well. -/
theorem nodeFits_nodes (inLoop : Bool) : ∀ s : Stmt, ∀ t ∈ s.nodes inLoop, NodeFits inLoop t
  | .loop v min extent _ body => by
    intro t ht
    rw [nodes, List.mem_singleton] at ht
    subst ht
    refine nodeFits_loopNode fun t ht => ?_
    rcases List.mem_append.1 ht with ht | ht
    · rcases List.mem_append.1 ht with ht | ht
      · exact nodeFits_accesses min t ht
      · exact nodeFits_accesses extent t ht
    · exact nodeFits_nodes true body t ht
  | .attribute key iterVar _ value body => by
    have hplain : ∀ t ∈ kept inLoop value.accesses ++ nodes inLoop body, NodeFits inLoop t := by
      intro t ht
      rcases List.mem_append.1 ht with ht | ht
      · exact nodeFits_kept value.hasKind_accesses t ht
      · exact nodeFits_nodes inLoop body t ht
    cases iterVar with
    | none => exact hplain
    | some v =>
      cases hbinds : bindsThreads key with
      | false => simpa only [nodes, hbinds] using hplain
      | true =>
        intro t ht
        simp only [nodes, hbinds, List.mem_singleton] at ht
        subst ht
        refine nodeFits_loopNode fun t ht => ?_
        rcases List.mem_append.1 ht with ht | ht
        · exact nodeFits_accesses value t ht
        · exact nodeFits_nodes true body t ht
  | .store buffer value index predicate => by
    refine nodeFits_kept fun t ht => ?_
    rcases List.mem_cons.1 ht with rfl | ht
    · exact Tree.hasKind_access buffer index
    · rcases List.mem_append.1 ht with ht | ht
      · rcases List.mem_append.1 ht with ht | ht
        · exact value.hasKind_accesses t ht
        · exact index.hasKind_accesses t ht
      · exact Expr.hasKind_accessesOption predicate t ht
  | .binding _ value body => by
    intro t ht
    rw [nodes, List.mem_append] at ht
    rcases ht with ht | ht
    · exact nodeFits_kept value.hasKind_accesses t ht
    · exact nodeFits_nodes inLoop body t ht
  | .conditional condition thenCase elseCase => by
    intro t ht
    rw [nodes, List.mem_append, List.mem_append] at ht
    rcases ht with (ht | ht) | ht
    · exact nodeFits_kept condition.hasKind_accesses t ht
    · exact nodeFits_nodes inLoop thenCase t ht
    · exact nodeFits_nodesOption inLoop elseCase t ht
  | .sequence stmts => nodeFits_nodesList inLoop stmts
  | .evaluate value => nodeFits_kept value.hasKind_accesses

theorem nodeFits_nodesOption (inLoop : Bool) :
    ∀ s : Option Stmt, ∀ t ∈ nodesOption inLoop s, NodeFits inLoop t
  | none => nofun
  | some s => nodeFits_nodes inLoop s

theorem nodeFits_nodesList (inLoop : Bool) :
    ∀ ss : List Stmt, ∀ t ∈ nodesList inLoop ss, NodeFits inLoop t
  | [] => nofun
  | s :: ss => by
    intro t ht
    rw [nodesList, List.mem_append] at ht
    rcases ht with ht | ht
    · exact nodeFits_nodes inLoop s t ht
    · exact nodeFits_nodesList inLoop ss t ht

end

/-- **The nodes of the graph of a program have kinds that fit together.** -/
theorem hasKind_graph (s : Stmt) : s.graph.HasKind .root := by
  have hloops : ∀ t ∈ s.nodes false, ∃ kind, kind = .loop ∧ t.HasKind kind := by
    intro t ht
    rcases nodeFits_nodes false s t ht with ht | ⟨hin, -⟩
    · exact ⟨.loop, rfl, ht⟩
    · simp at hin
  obtain ⟨kinds, hkinds, hhanging⟩ := Tree.exists_haveKinds hloops
  refine Tree.hasKind_ofScope ⟨?_, hkinds⟩ hhanging
  by_cases hempty : (s.nodes true).isEmpty
  · exact .inr (if_pos hempty)
  · exact .inl (if_neg hempty)

/-- **The nodes of every extracted table have kinds that fit together**: one root with loops below
it, loops with their variable first and then loops and accesses, accesses with variables in order,
and variables without anything below. In particular the first child of a node labelled as a loop is
a leaf, whatever buffers and variables are called. -/
theorem extract_kinds {s : Stmt} {x : Extraction} (h : s.extract = .ok x) :
    (∃ kind, x.table.HasKinds kind) ∧
    ∀ (id first : Nat) (rest : List Nat), x.table.labels[id]? = some Tree.loopLabel →
      x.table.children[id]? = some (first :: rest) → x.table.children[first]? = some [] := by
  rw [table_of_extract h]
  obtain ⟨kind, hkind⟩ := Table.exists_hasKinds_ofTree s.hasKind_graph
  exact ⟨⟨kind, hkind⟩, fun id first rest => hkind.first_is_leaf⟩

/-- A loop whose variable and buffers go by the names of loops and of the root, behind an access to
a buffer called `for` outside of loops. -/
def impostors : Stmt :=
  .sequence [
    .storeTo "for" (.int 0) (.named "root"),
    .serialLoop "for" 4 <|
      .storeTo "for" (.binary .add (.named "root") (.named "for")) (.loadFrom "root" (.int 0))]

theorem extract_kinds_impostors :
    ∃ x, impostors.extract = .ok x ∧
      (x.table.children = [[], [], [], [1, 2], [], [0, 3, 4], [5]] ∧
        x.table.labels = ["for", "for", "root", "for", "root", "for", "root"]) ∧
      (∃ kind, x.table.HasKinds kind) ∧ x.table.children[1]? = some [] := by
  have hsize : Layout.size (Table.ofTree impostors.graph) < limit := by
    rw [Table.ofTree_eq]
    decide
  obtain ⟨x, hx, htable, -⟩ := extract_eq_ok hsize
  obtain ⟨hkinds, hfirst⟩ := extract_kinds hx
  have hrows : x.table.children = [[], [], [], [1, 2], [], [0, 3, 4], [5]] ∧
      x.table.labels = ["for", "for", "root", "for", "root", "for", "root"] := by
    rw [htable, Table.ofTree_eq]
    decide
  refine ⟨x, hx, hrows, hkinds, hfirst 3 1 [2] ?_ ?_⟩
  · rw [hrows.2]
    rfl
  · rw [hrows.1]
    rfl

end Stmt

end AccessGraph
