import AccessGraph.Proofs.Buffer.RoundTrip
/-!
# Writing a buffer

A buffer is written piece by piece: the header, and then for each section the lengths of its rows
and their contents. The layout says beforehand where each section begins.

* `Table.pieces` : the pieces, in the order in which they are written.
* `Table.reached` : the position that is reached after some of them.
* `Table.InPlace` : the sections begin where the layout says, and words stand for their numbers.
* `Table.encode_in_place` : **a table that has a layout is written in place.**
* `Table.encode_refused` : **exactly the ill-formed tables are refused**, for their first defect.
-/

namespace AccessGraph

open Word (limit)

namespace Table

/-! ### Pieces -/

/-- The pieces of a buffer, in the order in which they are written. -/
def pieces (t : Table) (layout : Layout) : List (List UInt8) :=
  [headerBytes layout,
    t.children.flatMap (lengthBytes ·.length),
    t.children.flatten.flatMap fun id => Word.bytes (.ofNat id),
    t.edges.flatMap (lengthBytes ·.length),
    t.edges.flatten.flatMap (Word.bytes ·.tag),
    t.labels.flatMap (lengthBytes ·.utf8ByteSize),
    t.labels.flatMap utf8Bytes]

/-- The position that is reached in a buffer when its first pieces have been written. -/
def reached (t : Table) (layout : Layout) (count : Nat) : Nat :=
  ((t.pieces layout).take count).flatten.length

/-- The lengths of rows and labels that are written. -/
def lengths (t : Table) : List Nat :=
  t.children.map List.length ++ t.edges.map List.length ++ t.labels.map String.utf8ByteSize

/-- What is written of the children, without the pieces before. -/
theorem childrenBytes_eq (t : Table) :
    t.childrenBytes = t.children.flatMap (lengthBytes ·.length) ++
      t.children.flatten.flatMap fun id => Word.bytes (.ofNat id) :=
  congrArg (_ ++ ·) (Section.wordsContent_flatten Int32.ofNat t.children).symm

/-- What is written of the edge kinds, without the pieces before. -/
theorem edgesBytes_eq (t : Table) :
    t.edgesBytes = t.edges.flatMap (lengthBytes ·.length) ++
      t.edges.flatten.flatMap (Word.bytes ·.tag) :=
  congrArg (_ ++ ·) (Section.wordsContent_flatten EdgeKind.tag t.edges).symm

theorem flatten_pieces (t : Table) (layout : Layout) :
    (t.pieces layout).flatten =
      headerBytes layout ++ (t.childrenBytes ++ (t.edgesBytes ++ t.labelsBytes)) := by
  rw [childrenBytes_eq, edgesBytes_eq, labelsBytes, Section.bytes]
  simp [pieces]

theorem reached_children (t : Table) (layout : Layout) :
    t.reached layout 1 = Layout.headerSize := by
  simp [reached, pieces, length_headerBytes]

theorem reached_edges {t : Table} (h : t.WellFormed) (layout : Layout) :
    t.reached layout 3 = Layout.edgesStart t := by
  have hchildren := length_childrenBytes h.rows
  rw [childrenBytes_eq] at hchildren
  simp only [reached, pieces, List.take_succ_cons, List.take_zero, List.flatten_cons,
    List.flatten_nil, List.append_nil]
  rw [List.length_append, hchildren, length_headerBytes, Layout.edgesStart]

theorem reached_labels {t : Table} (h : t.WellFormed) (layout : Layout) :
    t.reached layout 5 = Layout.labelsStart t := by
  have hedges := length_edgesBytes h.edges_length
  rw [edgesBytes_eq] at hedges
  have hbefore := reached_edges h layout
  simp only [reached, pieces, List.take_succ_cons, List.take_zero, List.flatten_cons,
    List.flatten_nil, List.append_nil, List.length_append] at hbefore hedges ⊢
  rw [Layout.labelsStart]
  omega

/-! ### Numbers -/

theorem lengths_lt_limit {t : Table} (h : Layout.size t < limit) : ∀ n ∈ t.lengths, n < limit := by
  intro n hn
  refine Nat.lt_of_le_of_lt ?_ h
  simp only [lengths, List.mem_append, List.mem_map] at hn
  rcases hn with (⟨ids, hids, rfl⟩ | ⟨kinds, hkinds, rfl⟩) | ⟨label, hlabel, rfl⟩
  · exact Layout.length_row_le_size hids
  · exact Layout.length_kinds_le_size hkinds
  · exact Layout.utf8ByteSize_le_size t hlabel

/-- There is a node, so that no section is empty. -/
theorem WellFormed.starts_lt {t : Table} (h : t.WellFormed) :
    Layout.headerSize < Layout.edgesStart t ∧ Layout.edgesStart t < Layout.labelsStart t ∧
      Layout.labelsStart t < Layout.size t := by
  have := h.root
  unfold Layout.size Layout.labelsStart Layout.edgesStart Layout.childrenSize Layout.edgesSize
    Layout.labelsSize Layout.wordSize
  omega

/-! ### Writing -/

/-- How the buffer of a table agrees with its layout. -/
structure InPlace (t : Table) (layout : Layout) (buffer : List UInt8) : Prop where
  /-- The buffer is all pieces, one after the other. -/
  written : buffer = (t.pieces layout).flatten
  /-- The first words are the fields of the layout. -/
  header : ∃ rest, Word.readMany? 5 buffer = some ([layout.rootId, layout.nodeCount,
    layout.offsetChildren, layout.offsetEdges, layout.offsetLabels], rest)
  /-- The children begin when the header has been written. -/
  children : layout.offsetChildren.toInt = t.reached layout 1
  /-- The edge kinds begin when the lengths and the numbers of the children have been written. -/
  edges : layout.offsetEdges.toInt = t.reached layout 3
  /-- The labels begin when the lengths and the tags of the edge kinds have been written. -/
  labels : layout.offsetLabels.toInt = t.reached layout 5
  /-- The buffer is as long as the layout says. -/
  size : layout.totalSize.toInt = buffer.length
  /-- The first field is the number of the root. -/
  rootId : layout.rootId.toInt = t.rootId
  /-- The second field is the number of nodes. -/
  nodeCount : layout.nodeCount.toInt = t.count
  /-- A length does not change when it becomes a word. -/
  lengths : ∀ n ∈ t.lengths, (Int32.ofNat n).toInt = n
  /-- The number of a child fits into a word, and does not change either. -/
  ids : ∀ id ∈ t.children.flatten,
    Layout.fit "child id" id = .ok (.ofNat id) ∧ (Int32.ofNat id).toInt = id
  /-- The root is a node. -/
  root : 0 ≤ layout.rootId ∧ layout.rootId < layout.nodeCount
  /-- The header takes 20 bytes, and each section takes some. -/
  starts : layout.offsetChildren = 20 ∧ layout.offsetChildren < layout.offsetEdges ∧
    layout.offsetEdges < layout.offsetLabels ∧ layout.offsetLabels < layout.totalSize

theorem inPlace_exact {t : Table} (h : t.WellFormed) (hsize : Layout.size t < limit) :
    t.InPlace (Layout.exact t) (t.pieces (Layout.exact t)).flatten := by
  obtain ⟨hstart, hstart', hstart''⟩ := h.starts_lt
  have hcount := Layout.count_le_size t
  have hroot := h.root
  have hlength := (drop_starts h (Layout.exact t) (flatten_pieces t _)).2.2.2
  refine
    { written := rfl
      header := ⟨_, Word.readMany?_bytes [(Layout.exact t).rootId, (Layout.exact t).nodeCount,
        (Layout.exact t).offsetChildren, (Layout.exact t).offsetEdges,
        (Layout.exact t).offsetLabels] _⟩
      children := ?_
      edges := ?_
      labels := ?_
      size := ?_
      rootId := Word.toInt_ofNat (by omega)
      nodeCount := Word.toInt_ofNat (by omega)
      lengths := fun n hn => Word.toInt_ofNat (lengths_lt_limit hsize n hn)
      ids := fun id hid => ?_
      root := ⟨?_, ?_⟩
      starts := ⟨rfl, ?_, ?_, ?_⟩ }
  · rw [reached_children]
    exact Word.toInt_ofNat (by omega)
  · rw [reached_edges h]
    exact Word.toInt_ofNat (by omega)
  · rw [reached_labels h]
    exact Word.toInt_ofNat (by omega)
  · rw [hlength]
    exact Word.toInt_ofNat hsize
  · have hid := h.ids_lt_limit hsize id hid
    exact ⟨Layout.fit_of_lt hid, Word.toInt_ofNat hid⟩
  · exact Int32.zero_le_ofNat_of_lt (show t.rootId < limit by omega)
  · exact Word.ofNat_lt_ofNat hroot (by omega)
  · exact Word.ofNat_lt_ofNat hstart (by omega)
  · exact Word.ofNat_lt_ofNat hstart' (by omega)
  · exact Word.ofNat_lt_ofNat hstart'' hsize

/-- **A table that has a layout is written in place.** -/
theorem encode_in_place {t : Table} {layout : Layout} (h : Layout.ofTable t = .ok layout) :
    ∃ buffer, t.encode = .ok buffer ∧ t.InPlace layout buffer := by
  have hencode := encode_eq h
  obtain ⟨hwell, hsize, rfl⟩ := Layout.ofTable_eq_ok_iff.1 h
  rw [← flatten_pieces] at hencode
  exact ⟨_, hencode, inPlace_exact hwell hsize⟩

/-- A root without children, a node that is its own child, and labels of no, one and several
bytes. -/
def lopsided : Table where
  rootId := 0
  children := [[], [1, 2], []]
  edges := [[], [.structural, .structural], []]
  labels := ["", "é→", "i"]

theorem encode_in_place_lopsided :
    Layout.ofTable lopsided = .ok ⟨0, 3, 20, 40, 60, 78⟩ ∧
      ∃ buffer, lopsided.encode = .ok buffer ∧ lopsided.InPlace ⟨0, 3, 20, 40, 60, 78⟩ buffer :=
  have hlayout : Layout.ofTable lopsided = .ok ⟨0, 3, 20, 40, 60, 78⟩ := by decide
  ⟨hlayout, encode_in_place hlayout⟩

/-! ### Refusing -/

/-- A table is refused for its first defect, however large it is. -/
theorem FirstDefect.ofTable_eq {t : Table} {d : Defect} (h : t.FirstDefect d) :
    Layout.ofTable t = .error d := by
  rw [Layout.ofTable, check_eq_error_iff.2 h]
  rfl

theorem ofTable_eq_error_iff {t : Table} (hsize : Layout.size t < limit) {d : Defect} :
    Layout.ofTable t = .error d ↔ t.FirstDefect d := by
  refine ⟨fun h => ?_, FirstDefect.ofTable_eq⟩
  cases hcheck : t.check with
  | error e =>
    have hfirst := check_eq_error_iff.1 hcheck
    obtain rfl : e = d := by simpa [hfirst.ofTable_eq] using h
    exact hfirst
  | ok _ =>
    -- a table without defect has a layout
    have hlayout := Layout.ofTable_eq_ok_iff.2 ⟨check_eq_ok_iff.1 hcheck, hsize, rfl⟩
    simp [hlayout] at h

/-- Nothing is refused after its layout has been found. -/
theorem encode_eq_error_iff {t : Table} {d : Defect} :
    t.encode = .error d ↔ Layout.ofTable t = .error d := by
  constructor
  · intro h
    cases hlayout : Layout.ofTable t with
    | error e => simpa [encode, hlayout, bind, Except.bind] using h
    | ok layout => simp [encode_eq hlayout] at h
  · intro h
    rw [encode, h]
    rfl

theorem encode_eq_ok_iff {t : Table} :
    (∃ buffer, t.encode = .ok buffer) ↔ ∃ layout, Layout.ofTable t = .ok layout := by
  constructor
  · rintro ⟨buffer, h⟩
    obtain ⟨layout, hlayout, -⟩ := bind_eq_ok_iff.1 h
    exact ⟨layout, hlayout⟩
  · rintro ⟨layout, h⟩
    exact ⟨_, encode_eq h⟩

/-- A well-formed table has a root, and so a row in each of its lists. -/
theorem WellFormed.ne_nil {t : Table} (h : t.WellFormed) :
    t.children ≠ [] ∧ t.edges ≠ [] ∧ t.labels ≠ [] := by
  have hpos : 0 < t.count := Nat.zero_lt_of_lt h.root
  refine ⟨?_, ?_, List.ne_nil_of_length_pos hpos⟩
  · exact List.ne_nil_of_length_pos (h.rows ▸ hpos)
  · exact List.ne_nil_of_length_pos (h.edges_length ▸ hpos)

theorem exists_firstDefect {t : Table} (h : ¬ t.WellFormed) : ∃ d, t.FirstDefect d := by
  obtain ⟨-, hwell⟩ | ⟨d, -, hfirst⟩ := check_cases t
  · exact absurd hwell h
  · exact ⟨d, hfirst⟩

/-- **Exactly the ill-formed tables are refused**, for their first defect, if only the buffer would
not be too large. Among these are the tables that have no row in one of their lists. -/
theorem encode_refused (t : Table) :
    (∀ d, t.FirstDefect d → Layout.ofTable t = .error d ∧ t.encode = .error d) ∧
      (t.children = [] ∨ t.edges = [] ∨ t.labels = [] → ∃ d, t.FirstDefect d) ∧
      (Layout.size t < limit →
        ((∃ layout, Layout.ofTable t = .ok layout) ↔ t.WellFormed) ∧
        ((∃ buffer, t.encode = .ok buffer) ↔ t.WellFormed) ∧
        ∀ d, (Layout.ofTable t = .error d ↔ t.FirstDefect d) ∧
          (t.encode = .error d ↔ t.FirstDefect d)) := by
  refine ⟨fun d hfirst => ?_, fun hempty => exists_firstDefect fun hwell => ?_, fun hsize => ?_⟩
  · have hlayout := hfirst.ofTable_eq
    exact ⟨hlayout, encode_eq_error_iff.2 hlayout⟩
  · obtain ⟨hchildren, hedges, hlabels⟩ := hwell.ne_nil
    simp [hchildren, hedges, hlabels] at hempty
  · have hlayout : (∃ layout, Layout.ofTable t = .ok layout) ↔ t.WellFormed := by
      simp [Layout.ofTable_eq_ok_iff, hsize]
    refine ⟨hlayout, encode_eq_ok_iff.trans hlayout, fun d => ⟨ofTable_eq_error_iff hsize, ?_⟩⟩
    exact encode_eq_error_iff.trans (ofTable_eq_error_iff hsize)

/-- A table with more than one defect: two rows that are not aligned, different numbers of rows, none
of them for a label, and so a root and children that are no rows. -/
def broken : Table where
  rootId := 9
  children := [[7], [0, 8], []]
  edges := [[.structural], [.structural], [.structural], []]
  labels := []

theorem encode_refused_broken :
    broken.FirstDefect (.misaligned 1 2 1) ∧ Layout.size broken < limit ∧ broken.labels = [] ∧
      Layout.ofTable broken = .error (.misaligned 1 2 1) ∧
      broken.encode = .error (.misaligned 1 2 1) ∧ (∃ d, broken.FirstDefect d) ∧
      ¬ ∃ buffer, broken.encode = .ok buffer := by
  have hsize : Layout.size broken < limit := by decide
  have hfirst : broken.FirstDefect (.misaligned 1 2 1) := by
    refine @FirstDefect.row broken 1 [0, 8] [.structural] rfl rfl (by decide) fun j hj => ?_
    obtain rfl : j = 0 := by omega
    exact alignedAt_cons_zero.2 rfl
  obtain ⟨hrefused, hempty, hexact⟩ := encode_refused broken
  obtain ⟨-, haccepted, -⟩ := hexact hsize
  obtain ⟨hlayout, hbuffer⟩ := hrefused _ hfirst
  refine ⟨hfirst, hsize, rfl, hlayout, hbuffer, hempty (.inr (.inr rfl)), fun h => ?_⟩
  exact absurd (haccepted.1 h).root (by decide)

end Table

end AccessGraph
