import AccessGraph.Proofs.Extraction
import AccessGraph.Proofs.Table.Joined
/-!
# Programs in sequence

No statement of a sequence stands inside of a loop because of the others, so that its nodes are what
they are without them. Only the root is shared, and with it the label, which tells whether any of
the statements has events.

* `Stmt.table?` : the table of a program.
* `Stmt.isEmpty_nodes_true` : the nodes inside of a loop tell whether a program has events.
* `Stmt.graph_sequence` : the children of the root of a sequence are those of its statements.
* `Stmt.joins_sequence` : the table of a sequence is made of those of its statements.
* `Stmt.table?_sequence` : **the table of a sequence, row by row, for any number of statements and
  for two.**
-/

namespace AccessGraph

namespace Stmt

/-- The table of a program. -/
def table? (s : Stmt) : Except Violation Table := s.tree?.map Table.ofTree

theorem table?_eq (s : Stmt) : s.table? = .ok (Table.ofTree s.graph) := by
  rw [table?, tree?_eq]
  rfl

/-- The table of an extraction is that of the program. -/
theorem table?_of_extract {s : Stmt} {x : Extraction} (h : s.extract = .ok x) :
    s.table? = .ok x.table := by
  rw [table?_eq, table_of_extract h]

/-! ### The root -/

/-- The label of the root of statements in sequence. -/
def sequenceLabel (ss : List Stmt) : String :=
  if ss.all (·.events.isEmpty) then "" else Tree.rootLabel

/-- A program has events exactly if it would have nodes inside of a loop. -/
theorem isEmpty_nodes_true (s : Stmt) : (s.nodes true).isEmpty = s.events.isEmpty := by
  rw [← isEmpty_blocks, ← eventsList_blocks, Block.isEmpty_eventsList]

theorem isEmpty_nodesList_true (ss : List Stmt) :
    (nodesList true ss).isEmpty = ss.all (·.events.isEmpty) := by
  induction ss with
  | nil => rfl
  | cons s ss ih =>
    rw [nodesList, List.all_cons, ← isEmpty_nodes_true, ← ih]
    cases nodes true s <;> rfl

theorem children_graph (s : Stmt) : s.graph.children = (s.nodes false).map (.structural, ·) := rfl

/-- The children of the root of a sequence are those of the roots of its statements. -/
theorem graph_sequence (ss : List Stmt) : (Stmt.sequence ss).graph =
    .node (sequenceLabel ss) ((ss.map graph).flatMap Tree.children) := by
  have hchildren : (nodesList false ss).map (EdgeKind.structural, ·) =
      (ss.map graph).flatMap Tree.children := by
    induction ss with
    | nil => rfl
    | cons s ss ih =>
      rw [nodesList, List.map_append, ih, List.map_cons, List.flatMap_cons, children_graph]
  rw [graph, nodes, nodes, isEmpty_nodesList_true, ← hchildren]
  rfl

/-- The table of a sequence is made of those of its statements. -/
theorem joins_sequence (ss : List Stmt) :
    Table.Joins (ss.map (Table.ofTree ·.graph)) (sequenceLabel ss)
      (Table.ofTree (Stmt.sequence ss).graph) := by
  have hjoins := Table.joins_ofTree (sequenceLabel ss) (ss.map graph)
  rwa [List.map_map, ← graph_sequence] at hjoins

theorem forall₂_table? (ss : List Stmt) :
    List.Forall₂ (fun s part => s.table? = .ok part) ss (ss.map (Table.ofTree ·.graph)) := by
  rw [List.forall₂_map_right_iff]
  exact List.forall₂_same.2 fun s _ => table?_eq s

/-- **The table of a sequence**, for any number of statements and, row by row, for two. -/
theorem table?_sequence :
    (∀ ss : List Stmt, ∃ parts t,
      List.Forall₂ (fun s part => s.table? = .ok part) ss parts ∧
        (Stmt.sequence ss).table? = .ok t ∧
        Table.Joins parts (if ss.all (·.events.isEmpty) then "" else "root") t) ∧
      (∀ a b : Stmt, ∃ first second t, a.table? = .ok first ∧ b.table? = .ok second ∧
        (Stmt.sequence [a, b]).table? = .ok t ∧
        Table.JoinsPair first second
          (if a.events.isEmpty && b.events.isEmpty then "" else "root") t) ∧
      ∀ (s : Stmt) (x : Extraction), s.extract = .ok x → s.table? = .ok x.table := by
  refine ⟨fun ss => ?_, fun a b => ?_, fun s x => table?_of_extract⟩
  · exact ⟨_, _, forall₂_table? ss, table?_eq _, joins_sequence ss⟩
  · have hpair := (joins_sequence [a, b]).pair
    rw [sequenceLabel, List.all_cons, List.all_cons, List.all_nil, Bool.and_true] at hpair
    exact ⟨_, _, _, table?_eq a, table?_eq b, table?_eq _, hpair⟩

/-- An access outside of loops, which has a scope but no node. -/
def query : Stmt := .evaluate (.loadFrom "size" (.named "n"))

/-- A loop that fills a buffer. -/
def fill : Stmt :=
  .loop (.named "i") (.int 0) (.int 8) .serial (.storeTo "out" (.named "i") (.int 0))

theorem table?_sequence_query_fill :
    ∃ x first second, (Stmt.sequence [query, fill]).extract = .ok x ∧
      query.table? = .ok first ∧ fill.table? = .ok second ∧
      Table.JoinsPair first second "root" x.table ∧ first.count = 1 ∧
      x.table.labels = ["i", "i", "out", "for", "root"] := by
  have hsize : Layout.size (Table.ofTree (Stmt.sequence [query, fill]).graph) < Word.limit := by
    rw [Table.ofTree_eq]
    decide
  obtain ⟨x, hx, htable, -⟩ := extract_eq_ok hsize
  obtain ⟨-, hpairs, hextracted⟩ := table?_sequence
  obtain ⟨first, second, t, hfirst, hsecond, ht, hpair⟩ := hpairs query fill
  obtain rfl : t = x.table := Except.ok.inj (ht.symm.trans (hextracted _ x hx))
  refine ⟨x, first, second, hx, hfirst, hsecond, hpair, ?_, ?_⟩
  · obtain rfl := Except.ok.inj ((table?_eq query).symm.trans hfirst)
    exact Table.count_ofTree _
  · rw [htable, Table.ofTree_eq]
    decide

end Stmt

end AccessGraph
