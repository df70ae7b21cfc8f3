import AccessGraph.Proofs.Extraction
import AccessGraph.Proofs.Outline.Unfolding
/-!
# The text of an outline

The outline of the graph of a program is known line by line from its tree and the number of bytes in its
buffer.

* `Layout.starts_ofTree` : where the sections of the buffer of a tree begin.
* `Tree.outlineLines` : the lines.
* `Extraction.outline_eq` : **the outline is these lines, each of them ended.**
-/

namespace AccessGraph

open Word (limit)

/-- A tree has one child less than nodes, so that its number of nodes tells where the sections of its
buffer begin. -/
theorem Layout.starts_ofTree (t : Tree) :
    Layout.edgesStart (Table.ofTree t) = 16 + 8 * t.size ∧
      Layout.labelsStart (Table.ofTree t) = 12 + 16 * t.size := by
  -- the root is the only node that is not a child
  have hchildren : (Table.ofTree t).children.flatten.length = t.size - 1 := by
    rw [(Table.perm_range_flatten_ofTree t).length_eq, List.length_range]
  have hedges : (Table.ofTree t).edges.flatten.length = t.size - 1 := by
    rw [List.length_flatten, ← (Table.wellFormed_ofTree t).aligned, ← List.length_flatten, hchildren]
  have hpos := t.size_pos
  unfold labelsStart edgesStart childrenSize edgesSize headerSize wordSize
  rw [Table.count_ofTree_eq_size, hchildren, hedges]
  omega

/-- The lines of the outline of a tree with `size` bytes in its buffer. -/
def Tree.outlineLines (t : Tree) (size : Nat) : List String :=
  ["root_id: " ++ toString (t.size - 1),
    "node_count: " ++ toString t.size,
    "offset_children: 20",
    "offset_edges: " ++ toString (16 + 8 * t.size),
    "offset_labels: " ++ toString (12 + 16 * t.size),
    "total_size: " ++ toString size,
    "children:"] ++
  ((Table.ofTree t).children.zipIdx.map fun (ids, id) =>
    "  " ++ toString id ++ ": [" ++ ", ".intercalate (ids.map toString) ++ "]") ++
  ["labels:"] ++
  ((Table.ofTree t).labels.zipIdx.map fun (label, id) => "  " ++ toString id ++ ": " ++ label) ++
  ["tree:"] ++
  (t.preorder 0).map fun (depth, label) => String.ofList (List.replicate depth ' ') ++ label

/-- Lines with an end between each two of them, and one behind the last. -/
theorem intercalate_newline {lines : List String} (h : lines ≠ []) :
    "\n".intercalate lines ++ "\n" = String.join (lines.map (· ++ "\n")) := by
  induction lines with
  | nil => exact absurd rfl h
  | cons line lines ih =>
    cases lines with
    | nil => simp
    | cons next lines =>
      rw [String.intercalate_cons_cons, List.map_cons, String.join_cons, ← ih (List.cons_ne_nil _ _)]
      simp only [String.append_assoc]

/-- A number that fits into a word is written as it is. -/
theorem toString_toInt {n : Nat} (h : n < limit) : toString (Int32.ofNat n).toInt = toString n := by
  rw [Word.toInt_ofNat h]
  rfl

/-- The lines of the layout of a table show the numbers themselves. -/
theorem Outline.layoutLines_exact {t : Table} (h : t.WellFormed) (hsize : Layout.size t < limit) :
    layoutLines (Layout.exact t) =
      ["root_id: " ++ toString t.rootId, "node_count: " ++ toString t.count, "offset_children: 20",
        "offset_edges: " ++ toString (Layout.edgesStart t),
        "offset_labels: " ++ toString (Layout.labelsStart t),
        "total_size: " ++ toString (Layout.size t)] := by
  obtain ⟨hstart, hstart', hstart''⟩ := Layout.starts_le t
  have hcount := Layout.count_le_size t
  have hroot := h.root
  have hheader : toString Layout.headerSize = "20" := rfl
  simp only [layoutLines, Layout.exact, List.map_cons, List.map_nil]
  -- none of the numbers is greater than the whole size, which fits
  rw [toString_toInt (by omega), toString_toInt (by omega), toString_toInt (by omega),
    toString_toInt (by omega), toString_toInt (by omega), toString_toInt hsize]
  simp [hheader]

/-- **The outline of a tree is its lines, each of them ended.** -/
theorem Extraction.outline_eq {t : Tree} {x : Extraction} (h : Extraction.ofTree t = .ok x) :
    x.outline = String.join ((t.outlineLines x.buffer.length).map (· ++ "\n")) := by
  obtain ⟨hlayout, hbuffer⟩ := encode_of_ofTree h
  rw [table_of_ofTree h] at hlayout hbuffer
  obtain ⟨hwell, hsize, hexact⟩ := Layout.ofTable_eq_ok_iff.1 hlayout
  have hlength : x.buffer.length = Layout.size (Table.ofTree t) :=
    (Table.drop_starts hwell _ (Except.ok.inj (hbuffer.symm.trans (Table.encode_eq hlayout)))).2.2.2
  obtain ⟨hedges, hlabels⟩ := Layout.starts_ofTree t
  have hroot : (Table.ofTree t).rootId = t.size - 1 := by
    rw [Table.rootId_ofTree, Tree.size_eq, Nat.add_sub_cancel_left]
  rw [outline, table_of_ofTree h, Table.outline, intercalate_newline (by simp), hexact,
    Outline.layoutLines_exact hwell hsize, Outline.treeLines_ofTree, Table.count_ofTree_eq_size,
    hroot, hedges, hlabels, ← hlength]
  simp [Tree.outlineLines, Outline.childrenLines, Outline.labelLines, Tree.lines, Outline.line]

end AccessGraph
