import AccessGraph.Proofs.Dot.Label
import AccessGraph.Proofs.Table.WellFormed
import Mathlib.Data.List.Basic
/-!
# A drawing tells its table

Nothing of a well-formed table gets lost in its drawing, whatever the labels hold: no label breaks out
of its line, the root is told by its shape, and the edges name the rows that they belong to.

* `Dot.readNode?`, `Dot.readEdge?` : what the line of a node and the line of an edge tell.
* `Dot.readNode?_nodeLine`, `Dot.readEdge?_edgeLine` : both are read back.
* `Dot.rowsOf`, `Dot.rowsOf_edgesOf` : the edges of all nodes, put back into rows.
* `Table.ofDot?` : the table that a drawing shows.
* `Table.dot_unambiguous` : **a table that passes its check is read back from its drawing**, so that
  no two of them have the same drawing.
-/

namespace AccessGraph

namespace Dot

/-! ### Words and numbers -/

theorem dropPrefix?_append (word rest : List Char) : (word ++ rest).dropPrefix? word = some rest :=
  List.dropPrefix?_eq_some_iff.2 ⟨word, rfl, beq_self_eq_true word⟩

/-- The number that some characters start with, and the characters behind its digits. -/
def readNumber (cs : List Char) : Nat × List Char :=
  (Nat.ofDigitChars 10 (cs.takeWhile Char.isDigit) 0, cs.dropWhile Char.isDigit)

/-- A number ends in front of a character that is no digit. -/
theorem readNumber_append (n : Nat) (rest : List Char)
    (h : ∀ c, rest.head? = some c → c.isDigit = false) :
    readNumber ((toString n).toList ++ rest) = (n, rest) := by
  have hdigits : ∀ c ∈ (toString n).toList, c.isDigit = true := by
    intro c hc
    rw [show toString n = n.repr from rfl, Nat.toList_repr] at hc
    exact Nat.isDigit_of_mem_toDigits (by decide) (by decide) hc
  have hstop : rest.takeWhile Char.isDigit = [] ∧ rest.dropWhile Char.isDigit = rest := by
    cases rest with
    | nil => exact ⟨rfl, rfl⟩
    | cons c rest => simp [h c rfl]
  rw [readNumber, List.takeWhile_append_of_pos hdigits, List.dropWhile_append_of_pos hdigits,
    hstop.1, hstop.2, List.append_nil, show toString n = n.repr from rfl, Nat.toList_repr,
    Nat.ofDigitChars_ten_toDigits]

/-! ### The line of a node -/

/-- The label that the line of a node shows, and whether the node is the root. -/
def readNode? (line : List Char) : Option (String × Bool) := do
  let (_, cs) := readNumber (← line.dropPrefix? "    n".toList)
  let (label, cs) ← readLabel (← cs.dropPrefix? " [label=\"".toList)
  some (String.ofList label, cs = ", shape=doublecircle];".toList)

/-- Only the root is a double circle. -/
theorem shape_eq_iff (t : Table) (id : Nat) (label : String) :
    ", shape=".toList ++ ((shape t id label).toList ++ "];".toList) =
      ", shape=doublecircle];".toList ↔ id = t.rootId := by
  unfold shape
  split
  · rename_i hroot
    exact iff_of_true (by decide) hroot
  · rename_i hroot
    refine iff_of_false ?_ hroot
    split
    · decide
    · split
      · decide
      · decide

/-- **The line of a node is read back**, whatever its label. -/
theorem readNode?_nodeLine (t : Table) (id : Nat) (label : String) :
    readNode? (nodeLine t id label).toList = some (label, decide (id = t.rootId)) := by
  have hline : (nodeLine t id label).toList = "    n".toList ++ ((toString id).toList ++
      (" [label=\"".toList ++ ((escape label).toList ++ '"' ::
        (", shape=".toList ++ ((shape t id label).toList ++ "];".toList))))) := by
    simp [nodeLine]
  have hnumber := readNumber_append id (" [label=\"".toList ++ ((escape label).toList ++ '"' ::
    (", shape=".toList ++ ((shape t id label).toList ++ "];".toList)))) (by rintro _ ⟨⟩; rfl)
  rw [hline, readNode?]
  simp only [dropPrefix?_append, Option.bind_eq_bind, Option.bind_some, hnumber, readLabel_escape,
    String.ofList_toList, shape_eq_iff]

/-! ### The line of an edge -/

/-- The kind of edges that has a name. -/
def kindNamed? (name : List Char) : Option EdgeKind :=
  if name = EdgeKind.structural.name.toList then some .structural else none

theorem kindNamed?_name (kind : EdgeKind) : kindNamed? kind.name.toList = some kind := by
  cases kind
  rfl

/-- The nodes that the line of an edge joins, and the kind of the edge. -/
def readEdge? (line : List Char) : Option (Nat × Nat × EdgeKind) := do
  let (parent, cs) := readNumber (← line.dropPrefix? "    n".toList)
  let (child, cs) := readNumber (← cs.dropPrefix? " -> n".toList)
  let name := (← cs.dropPrefix? " [label=\"".toList).takeWhile (· ≠ '"')
  some (parent, child, ← kindNamed? name)

/-- **The line of an edge is read back.** -/
theorem readEdge?_edgeLine (parent child : Nat) (kind : EdgeKind) :
    readEdge? (edgeLine parent child kind).toList = some (parent, child, kind) := by
  have hline : (edgeLine parent child kind).toList = "    n".toList ++ ((toString parent).toList ++
      (" -> n".toList ++ ((toString child).toList ++ (" [label=\"".toList ++
        (kind.name.toList ++ "\"];".toList))))) := by
    simp [edgeLine]
  have hchild := readNumber_append child (" [label=\"".toList ++
    (kind.name.toList ++ "\"];".toList)) (by rintro _ ⟨⟩; rfl)
  have hparent := readNumber_append parent (" -> n".toList ++ ((toString child).toList ++
    (" [label=\"".toList ++ (kind.name.toList ++ "\"];".toList)))) (by rintro _ ⟨⟩; rfl)
  have hname : (kind.name.toList ++ "\"];".toList).takeWhile (· ≠ '"') = kind.name.toList := by
    cases kind
    decide
  rw [hline, readEdge?]
  simp only [dropPrefix?_append, Option.bind_eq_bind, Option.bind_some, hparent, hchild, hname,
    kindNamed?_name]

/-! ### Lines -/

theorem newline_not_mem_toDigits (n : Nat) : '\n' ∉ Nat.toDigits 10 n := by
  intro hmem
  have hdigit := Nat.isDigit_of_mem_toDigits (by decide) (by decide) hmem
  exact absurd hdigit (by decide)

theorem newline_not_mem_nodeLine (t : Table) (id : Nat) (label : String) :
    '\n' ∉ (nodeLine t id label).toList := by
  have hshape : '\n' ∉ (shape t id label).toList := by
    unfold shape
    split
    · decide
    · split
      · decide
      · split
        · decide
        · decide
  simp [nodeLine, newline_not_mem_toDigits, newline_not_mem_escape, hshape]

theorem newline_not_mem_edgeLine (parent child : Nat) (kind : EdgeKind) :
    '\n' ∉ (edgeLine parent child kind).toList := by
  have hname : '\n' ∉ kind.name.toList := by
    cases kind
    decide
  simp [edgeLine, newline_not_mem_toDigits, hname]

/-! ### Rows of edges -/

/-- All edges, each with the row that it belongs to. The first row has the number `first`. -/
def edgesOf {α : Type} (first : Nat) (rows : List (List α)) : List (Nat × α) :=
  (rows.zipIdx first).flatMap fun (row, parent) => row.map (parent, ·)

/-- The edges of each of `count` nodes. -/
def rowsOf {α : Type} (count : Nat) (edges : List (Nat × α)) : List (List α) :=
  (List.range count).map fun id => (edges.filter (·.1 = id)).map (·.2)

theorem edgesOf_cons {α : Type} (first : Nat) (row : List α) (rows : List (List α)) :
    edgesOf first (row :: rows) = row.map (first, ·) ++ edgesOf (first + 1) rows := by
  rw [edgesOf, List.zipIdx_cons, List.flatMap_cons]
  rfl

theorem le_of_mem_edgesOf {α : Type} {first : Nat} {rows : List (List α)} {edge : Nat × α}
    (h : edge ∈ edgesOf first rows) : first ≤ edge.1 := by
  obtain ⟨⟨row, parent⟩, hrow, hedge⟩ := List.mem_flatMap.1 h
  obtain ⟨x, -, rfl⟩ := List.mem_map.1 hedge
  exact List.le_snd_of_mem_zipIdx hrow

/-- The edges of one node are those of its row. -/
theorem filter_edgesOf {α : Type} (first : Nat) (rows : List (List α)) (i : Nat) :
    ((edgesOf first rows).filter (·.1 = first + i)).map (·.2) = rows[i]?.getD [] := by
  induction rows generalizing first i with
  | nil => rfl
  | cons row rows ih =>
    rw [edgesOf_cons, List.filter_append, List.map_append]
    cases i with
    | zero =>
      -- all other edges belong to later rows
      have hfirst : (row.map (first, ·)).filter (·.1 = first + 0) = row.map (first, ·) :=
        List.filter_eq_self.2 (by simp)
      have hrest : (edgesOf (first + 1) rows).filter (·.1 = first + 0) = [] := by
        refine List.filter_eq_nil_iff.2 fun edge hedge => ?_
        have := le_of_mem_edgesOf hedge
        simp only [decide_eq_true_eq]
        omega
      rw [hfirst, hrest, List.map_nil, List.append_nil, List.map_map]
      exact List.map_id row
    | succ i =>
      have hfirst : (row.map (first, ·)).filter (·.1 = first + (i + 1)) = [] :=
        List.filter_eq_nil_iff.2 (by simp)
      have hindex : first + (i + 1) = first + 1 + i := by omega
      rw [hfirst, List.map_nil, List.nil_append, hindex, ih, List.getElem?_cons_succ]

/-- **The edges of all nodes are put back into rows.** -/
theorem rowsOf_edgesOf {α : Type} (rows : List (List α)) :
    rowsOf rows.length (edgesOf 0 rows) = rows := by
  refine List.ext_getElem (by simp [rowsOf]) fun i hi hi' => ?_
  have hrow := filter_edgesOf 0 rows i
  rw [Nat.zero_add, List.getElem?_eq_getElem hi', Option.getD_some] at hrow
  rw [← hrow]
  simp [rowsOf]

/-- The rows of a table with the kinds of the edges. -/
def rows (t : Table) : List (List (Nat × EdgeKind)) := List.zipWith List.zip t.children t.edges

/-- The lines of edges are those of the edges in the rows. -/
theorem edgeLines_eq (t : Table) :
    edgeLines t = (edgesOf 0 (rows t)).map fun (parent, child, kind) => edgeLine parent child kind := by
  rw [edgeLines, edgesOf, rows, List.map_flatMap, ← List.map_uncurry_zip_eq_zipWith, List.zipIdx_map,
    List.flatMap_map]
  simp only [List.map_map]
  rfl

/-- In rows that are aligned no child and no kind is left out. -/
theorem rows_of_aligned {children : List (List Nat)} {edges : List (List EdgeKind)}
    (h : children.map List.length = edges.map List.length) :
    (List.zipWith List.zip children edges).map (·.map (·.1)) = children ∧
      (List.zipWith List.zip children edges).map (·.map (·.2)) = edges := by
  induction children generalizing edges with
  | nil =>
    obtain rfl : edges = [] := List.map_eq_nil_iff.1 h.symm
    exact ⟨rfl, rfl⟩
  | cons ids children ih =>
    obtain ⟨kinds, edges, rfl, hlength, hrest⟩ := List.map_eq_cons_iff.1 h.symm
    obtain ⟨hchildren, hedges⟩ := ih hrest.symm
    rw [List.zipWith_cons_cons, List.map_cons, List.map_cons, hchildren, hedges,
      List.map_fst_zip (Nat.le_of_eq hlength.symm), List.map_snd_zip (Nat.le_of_eq hlength)]
    exact ⟨rfl, rfl⟩

end Dot

/-! ### Whole drawings -/

/-- The table that a drawing shows: the lines behind the opening are those of the nodes up to the
first empty one, and then those of the edges up to the closing brace. -/
def Table.ofDot? (text : String) : Option Table := do
  let lines := (text.toList.splitOn '\n').drop Dot.opening.length
  let nodes ← (lines.takeWhile (· ≠ [])).mapM Dot.readNode?
  let edges ← ((lines.dropWhile (· ≠ [])).drop 1).dropLast.mapM Dot.readEdge?
  let rows := Dot.rowsOf nodes.length edges
  some {
    rootId := nodes.findIdx (·.2)
    children := rows.map (·.map (·.1))
    edges := rows.map (·.map (·.2))
    labels := nodes.map (·.1) }

namespace Dot

/-- The lines of the nodes of a table. -/
def nodeLines (t : Table) : List String := t.labels.zipIdx.map fun (label, id) => nodeLine t id label

/-- **No label breaks out of its line**: a drawing has these lines and no others. -/
theorem splitOn_dot (t : Table) : t.dot.toList.splitOn '\n' =
    opening.map String.toList ++
      ((nodeLines t).map String.toList ++ [] :: ((edgeLines t).map String.toList ++ [['\x7d']])) := by
  have hlines : t.dot.toList = ['\n'].intercalate (opening.map String.toList ++
      ((nodeLines t).map String.toList ++ [] :: ((edgeLines t).map String.toList ++ [['\x7d']]))) := by
    rw [Table.dot, String.toList_intercalate, ← nodeLines]
    simp
  rw [hlines, List.splitOn_intercalate '\n' _ (by simp)]
  intro line hline
  simp only [List.mem_append, List.mem_cons, List.not_mem_nil, or_false] at hline
  rcases hline with hline | hline | rfl | hline | rfl
  · revert line
    decide
  · obtain ⟨_, hnode, rfl⟩ := List.mem_map.1 hline
    obtain ⟨⟨label, id⟩, -, rfl⟩ := List.mem_map.1 hnode
    exact newline_not_mem_nodeLine t id label
  · decide
  · obtain ⟨_, hedge, rfl⟩ := List.mem_map.1 hline
    rw [edgeLines_eq] at hedge
    obtain ⟨⟨parent, child, kind⟩, -, rfl⟩ := List.mem_map.1 hedge
    exact newline_not_mem_edgeLine parent child kind
  · decide

/-- The lines of the nodes end with the first empty line. -/
theorem span_nodeLines (t : Table) (rest : List (List Char)) :
    ((nodeLines t).map String.toList ++ [] :: rest).takeWhile (· ≠ []) =
        (nodeLines t).map String.toList ∧
      ((nodeLines t).map String.toList ++ [] :: rest).dropWhile (· ≠ []) = [] :: rest := by
  have hlines : ∀ line ∈ (nodeLines t).map String.toList, decide (line ≠ []) = true := by
    intro line hline
    obtain ⟨_, hnode, rfl⟩ := List.mem_map.1 hline
    obtain ⟨⟨label, id⟩, -, rfl⟩ := List.mem_map.1 hnode
    simp [nodeLine]
  rw [List.takeWhile_append_of_pos hlines, List.dropWhile_append_of_pos hlines]
  exact ⟨List.append_nil _, rfl⟩

/-- The lines of the nodes tell the labels and which of the nodes is the root. -/
theorem mapM_readNode? (t : Table) : ((nodeLines t).map String.toList).mapM readNode? =
    some (t.labels.zipIdx.map fun (label, id) => (label, decide (id = t.rootId))) := by
  rw [nodeLines, List.map_map, List.mapM_map]
  simp only [Function.comp_def, readNode?_nodeLine]
  exact List.mapM_pure

/-- The lines of the edges tell the edges. -/
theorem mapM_readEdge? (t : Table) :
    ((edgeLines t).map String.toList).mapM readEdge? = some (edgesOf 0 (rows t)) := by
  rw [edgeLines_eq, List.map_map, List.mapM_map]
  simp only [Function.comp_def, readEdge?_edgeLine]
  exact (List.mapM_pure (f := id)).trans (by simp)

/-- The root is the first node of its shape. -/
theorem findIdx_root {t : Table} (h : t.rootId < t.count) :
    (t.labels.zipIdx.map fun (label, id) => (label, decide (id = t.rootId))).findIdx (·.2) =
      t.rootId := by
  rw [List.findIdx_eq (by simpa [Table.count] using h)]
  constructor
  · simp
  · intro id hid
    simp
    omega

end Dot

namespace Table

/-- **A table that passes its check is read back from its drawing.** -/
theorem ofDot?_dot {t : Table} (h : t.WellFormed) : ofDot? t.dot = some t := by
  obtain ⟨hchildren, hedges⟩ := Dot.rows_of_aligned h.aligned
  have hlength : (Dot.rows t).length = t.count := by
    simp [Dot.rows, h.rows, h.edges_length]
  rw [ofDot?, Dot.splitOn_dot, List.drop_left' (by simp)]
  have hlabels : (t.labels.zipIdx.map fun (label, id) => (label, decide (id = t.rootId))).map (·.1) =
      t.labels := by
    simp [Function.comp_def]
  have hcount : (t.labels.zipIdx.map fun (label, id) => (label, decide (id = t.rootId))).length =
      (Dot.rows t).length := by
    simp [hlength, count]
  simp only [(Dot.span_nodeLines t _).1, (Dot.span_nodeLines t _).2, List.drop_succ_cons,
    List.drop_zero, List.dropLast_concat, Dot.mapM_readNode?, Dot.mapM_readEdge?,
    Option.bind_eq_bind, Option.bind_some, hcount, Dot.rowsOf_edgesOf, Dot.findIdx_root h.root,
    hlabels]
  rw [Dot.rows, hchildren, hedges]

/-- **A table that passes its check is read back from its drawing**, whatever its labels; so no two
of them have the same drawing. -/
theorem dot_unambiguous :
    (∀ t : Table, t.check = .ok () → ofDot? t.dot = some t) ∧
      ∀ t u : Table, t.check = .ok () → u.check = .ok () → t.dot = u.dot → t = u := by
  have hread : ∀ t : Table, t.check = .ok () → ofDot? t.dot = some t := fun t ht =>
    ofDot?_dot (check_eq_ok_iff.1 ht)
  refine ⟨hread, fun t u ht hu hdot => ?_⟩
  have htable := hread t ht
  rw [hdot, hread u hu] at htable
  exact (Option.some.inj htable).symm

/-- A table with three nodes and awkward labels, one of which looks like the end of a label with
further lines behind it. -/
def hostile (label : String) : Table where
  rootId := 1
  children := [[], [2, 0, 2], []]
  edges := [[], [.structural, .structural, .structural], []]
  labels := [label, "\", shape=doublecircle];\n\n    n0 -> n1 [label=\"structural\"];\n\x7d", "\n\\\""]

theorem dot_unambiguous_hostile :
    (hostile "\n").check = .ok () ∧ (hostile "\\n").check = .ok () ∧
      ofDot? (hostile "\n").dot = some (hostile "\n") ∧ (hostile "\n").dot ≠ (hostile "\\n").dot := by
  have hfeed : (hostile "\n").check = .ok () := by decide
  have hslash : (hostile "\\n").check = .ok () := by decide
  refine ⟨hfeed, hslash, dot_unambiguous.1 _ hfeed, fun hdot => ?_⟩
  exact absurd (dot_unambiguous.2 _ _ hfeed hslash hdot) (by decide)

end Table

end AccessGraph
