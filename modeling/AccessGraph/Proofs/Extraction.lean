import AccessGraph.Proofs.Buffer.RoundTrip
import AccessGraph.Proofs.Program.Graph
import AccessGraph.Proofs.Table.Postorder
/-!
# Extraction, from a program to its buffer

* `Extraction.ofTree_eq_ok` : a tree whose buffer is small enough is extracted.
* `Stmt.extract_eq_ok` : a program whose buffer is small enough is extracted.
* `Stmt.extract_eq_of_nodes_eq` : what a program is extracted to depends on its nodes only.
* `Stmt.extract_read_back` : **the graph of a program is read back from its buffer.**
-/

namespace AccessGraph

open Word (limit)

/-- A tree whose buffer is small enough is extracted. -/
theorem Extraction.ofTree_eq_ok {t : Tree} (h : Layout.size (Table.ofTree t) < limit) :
    ∃ x, Extraction.ofTree t = .ok x ∧ x.table = Table.ofTree t ∧
      x.table.encode = .ok x.buffer := by
  have hlayout : Layout.ofTable (Table.ofTree t) = .ok (Layout.exact (Table.ofTree t)) :=
    Layout.ofTable_eq_ok_iff.2 ⟨Table.wellFormed_ofTree t, h, rfl⟩
  have hencode := Table.encode_eq hlayout
  refine ⟨⟨Table.ofTree t, Layout.exact (Table.ofTree t), _⟩, ?_, rfl, hencode⟩
  rw [Extraction.ofTree, hlayout, hencode]
  rfl

/-- The buffer of a tree that is extracted is small enough. -/
theorem Extraction.size_lt_of_ofTree {t : Tree} {x : Extraction} (h : Extraction.ofTree t = .ok x) :
    Layout.size (Table.ofTree t) < limit := by
  obtain ⟨layout, hlayout, -⟩ := bind_eq_ok_iff.1 h
  exact (Layout.ofTable_eq_ok_iff.1 hlayout).2.1

/-- The table of an extraction is that of the tree. -/
theorem Extraction.table_of_ofTree {t : Tree} {x : Extraction} (h : Extraction.ofTree t = .ok x) :
    x.table = Table.ofTree t := by
  obtain ⟨layout, -, h⟩ := bind_eq_ok_iff.1 h
  obtain ⟨buffer, -, h⟩ := bind_eq_ok_iff.1 h
  obtain rfl := Except.ok.inj h
  rfl

/-- The buffer of an extraction is that of its table, and so is the layout. -/
theorem Extraction.encode_of_ofTree {t : Tree} {x : Extraction} (h : Extraction.ofTree t = .ok x) :
    Layout.ofTable x.table = .ok x.layout ∧ x.table.encode = .ok x.buffer := by
  obtain ⟨layout, hlayout, h⟩ := bind_eq_ok_iff.1 h
  obtain ⟨buffer, hbuffer, h⟩ := bind_eq_ok_iff.1 h
  obtain rfl := Except.ok.inj h
  exact ⟨hlayout, hbuffer⟩

/-- A tree that is not extracted has a number that does not fit. -/
theorem Extraction.onlyOverflows_ofTree (t : Tree) :
    Layout.OnlyOverflows (Extraction.ofTree t) := by
  intro d h
  rcases bind_eq_error_iff.1 h with hlayout | ⟨layout, hlayout, -⟩
  · exact Layout.onlyOverflows_ofTable (Table.wellFormed_ofTree t) d hlayout
  · -- where there is a layout, there is a buffer as well
    obtain ⟨x, hx, -⟩ := Extraction.ofTree_eq_ok (Layout.ofTable_eq_ok_iff.1 hlayout).2.1
    rw [h] at hx
    simp at hx

namespace Stmt

/-- Only what follows the assembly of the tree can go wrong. -/
theorem extract_eq (s : Stmt) : s.extract = (Extraction.ofTree s.graph).mapError .table := by
  rw [extract, tree?_eq]
  rfl

/-- The extraction of a program is that of its graph. -/
theorem ofTree_of_extract {s : Stmt} {x : Extraction} (h : s.extract = .ok x) :
    Extraction.ofTree s.graph = .ok x := by
  rw [extract_eq] at h
  exact mapError_eq_ok_iff.1 h

/-- The table of an extraction is that of the graph of the program. -/
theorem table_of_extract {s : Stmt} {x : Extraction} (h : s.extract = .ok x) :
    x.table = Table.ofTree s.graph :=
  Extraction.table_of_ofTree (ofTree_of_extract h)

/-- A program whose buffer is small enough is extracted. -/
theorem extract_eq_ok {s : Stmt} (h : Layout.size (Table.ofTree s.graph) < limit) :
    ∃ x, s.extract = .ok x ∧ x.table = Table.ofTree s.graph ∧ x.table.encode = .ok x.buffer := by
  obtain ⟨x, hx, htable, hbuffer⟩ := Extraction.ofTree_eq_ok h
  refine ⟨x, ?_, htable, hbuffer⟩
  rw [extract, tree?_eq]
  change (Extraction.ofTree s.graph).mapError Failure.table = .ok x
  rw [hx]
  rfl

/-- Programs with the same nodes have the same tree and are extracted to the same. -/
theorem extract_eq_of_nodes_eq {s s' : Stmt} (h : ∀ inLoop, s.nodes inLoop = s'.nodes inLoop) :
    s.tree? = s'.tree? ∧ s.extract = s'.extract ∧
      ∀ room, s.extractInto room = s'.extractInto room := by
  have hgraph : s.graph = s'.graph := by rw [graph, graph, h true, h false]
  have hextract : s.extract = s'.extract := by rw [extract_eq, extract_eq, hgraph]
  refine ⟨?_, hextract, fun room => ?_⟩
  · rw [tree?_eq, tree?_eq, hgraph]
  · rw [extractInto, extractInto, hextract]

/-- **The graph of a program is read back from its buffer.** -/
theorem extract_read_back {s : Stmt} (h : Layout.size (Table.ofTree s.graph) < limit) :
    ∃ x, s.extract = .ok x ∧ (Table.decode? x.buffer).bind Table.tree? = some s.graph := by
  obtain ⟨x, hx, htable, hbuffer⟩ := extract_eq_ok h
  refine ⟨x, hx, ?_⟩
  rw [Table.decode?_of_encode hbuffer, Option.bind_some, htable, Table.tree?_ofTree]

/-- A gather in two loops, the outer one over threads, behind an access outside of loops. -/
def gather : Stmt :=
  .sequence [
    .evaluate (.loadFrom "size" (.named "n")),
    .attribute "thread_extent" (some (.named "t")) "threadIdx.x" (.int 4) <|
      .loop (.named "i") (.int 0) (.loadFrom "length" (.named "t")) .serial <|
        .storeTo "out" (.named "i") <|
          .loadFrom "data" (.loadFrom "index" (.binary .add (.named "t") (.named "i")))]

theorem extract_read_back_gather :
    Layout.size (Table.ofTree gather.graph) < limit ∧
      ∃ x, gather.extract = .ok x ∧ (Table.decode? x.buffer).bind Table.tree? = some
        (.ofScope "root" [] [.ofScope "for" ["t"] [.ofScope "for" ["i"] [
          .ofScope "length" ["t"] [], .ofScope "out" ["i"] [], .ofScope "data" ["i", "t"] [],
          .ofScope "index" ["i", "t"] []]]]) := by
  have hsize : Layout.size (Table.ofTree gather.graph) < limit := by
    rw [Table.ofTree_eq]
    decide
  obtain ⟨x, hx, htree⟩ := extract_read_back hsize
  refine ⟨hsize, x, hx, htree.trans (congrArg some ?_)⟩
  decide

end Stmt

end AccessGraph
