import AccessGraph.Buffer.Read
import AccessGraph.Proofs.Buffer.Fit
/-!
# Buffers are read back

A section that has been written is read back row by row, whatever stands behind it, and ends where
the next one begins.

* `Section.bytes` : a section for rows of any type.
* `Section.read?_bytes` : a section is read back if each of its rows is.
* `Table.encode_eq` : the buffer of a table is its header and three sections.
* `Table.Found` : what a reader finds in a buffer.
* `Table.read_back` : **the table of a buffer is the table that it was written from.**
-/

namespace AccessGraph

open Word (limit)

namespace Section

/-! ### Sections -/

/-- A section: the lengths of the rows, and then their contents. -/
def bytes {α : Type} (length : α → Nat) (content : α → List UInt8) (rows : List α) : List UInt8 :=
  rows.flatMap (fun row => Table.lengthBytes (length row)) ++ rows.flatMap content

section Rows

variable {α : Type} {length : α → Nat} {content : α → List UInt8}
  {row? : Nat → List UInt8 → Option (α × List UInt8)} {rows : List α}

theorem lengths?_bytes (hfit : ∀ row ∈ rows, length row < limit) (rest : List UInt8) :
    lengths? rows.length (rows.flatMap (fun row => Table.lengthBytes (length row)) ++ rest) =
      some (rows.map length, rest) := by
  have hwords : rows.flatMap (fun row => Table.lengthBytes (length row)) =
      ((rows.map length).map Int32.ofNat).flatMap Word.bytes := by
    simp [List.flatMap_map, Table.lengthBytes]
  have hread := Word.readMany?_bytes ((rows.map length).map Int32.ofNat) rest
  have hnumbers : ((rows.map length).map Int32.ofNat).mapM Word.toNat? = some (rows.map length) :=
    Word.mapM_toNat?_map_ofNat (by simpa using hfit)
  rw [List.length_map, List.length_map] at hread
  rw [lengths?, hwords, hread]
  simp only [Option.bind_eq_bind, Option.bind_some, hnumbers]

theorem rows?_bytes
    (hrow : ∀ row ∈ rows, ∀ rest, row? (length row) (content row ++ rest) = some (row, rest))
    (rest : List UInt8) :
    rows? row? (rows.map length) (rows.flatMap content ++ rest) = some (rows, rest) := by
  induction rows with
  | nil => rfl
  | cons row rows ih =>
    have hfirst := hrow row List.mem_cons_self (rows.flatMap content ++ rest)
    have hrest := ih fun row' h => hrow row' (List.mem_cons_of_mem _ h)
    simp [rows?, hfirst, hrest]

/-- **A section is read back** if the lengths of its rows fit and each row is read back. -/
theorem read?_bytes (hfit : ∀ row ∈ rows, length row < limit)
    (hrow : ∀ row ∈ rows, ∀ rest, row? (length row) (content row ++ rest) = some (row, rest))
    (rest : List UInt8) :
    read? row? rows.length (bytes length content rows ++ rest) = some (rows, rest) := by
  rw [bytes, List.append_assoc, read?, lengths?_bytes hfit]
  exact rows?_bytes hrow rest

theorem length_bytes (length : α → Nat) (content : α → List UInt8) (rows : List α) :
    (bytes length content rows).length =
      Layout.wordSize * rows.length + (rows.flatMap content).length := by
  have hlengths := Word.length_flatMap_bytes (fun row => Int32.ofNat (length row)) rows
  rw [bytes, List.length_append]
  exact congrArg (· + _) hlengths

end Rows

/-! ### Rows -/

/-- The contents of a row that consists of words. -/
def wordsContent {α : Type} (word : α → Int32) (row : List α) : List UInt8 :=
  row.flatMap fun x => Word.bytes (word x)

/-- The contents of a row of numbers. -/
def idsContent : List Nat → List UInt8 := wordsContent Int32.ofNat

/-- The contents of a row of edge kinds. -/
def kindsContent : List EdgeKind → List UInt8 := wordsContent EdgeKind.tag

section Words

variable {α : Type} (word : α → Int32)

theorem readMany?_wordsContent (row : List α) (rest : List UInt8) :
    Word.readMany? row.length (wordsContent word row ++ rest) = some (row.map word, rest) := by
  have hread := Word.readMany?_bytes (row.map word) rest
  rwa [List.length_map, List.flatMap_map] at hread

theorem wordsContent_flatten (rows : List (List α)) :
    wordsContent word rows.flatten = rows.flatMap (wordsContent word) := by
  induction rows with
  | nil => rfl
  | cons row rows ih =>
    rw [List.flatMap_cons, ← ih]
    exact List.flatMap_append

theorem length_flatMap_wordsContent (rows : List (List α)) :
    (rows.flatMap (wordsContent word)).length = Layout.wordSize * rows.flatten.length := by
  rw [← wordsContent_flatten]
  exact Word.length_flatMap_bytes word rows.flatten

end Words

theorem ids?_idsContent {ids : List Nat} (h : ∀ id ∈ ids, id < limit) (rest : List UInt8) :
    ids? ids.length (idsContent ids ++ rest) = some (ids, rest) := by
  rw [ids?, idsContent, readMany?_wordsContent]
  simp only [Option.bind_eq_bind, Option.bind_some, Word.mapM_toNat?_map_ofNat h]

theorem kinds?_kindsContent (kinds : List EdgeKind) (rest : List UInt8) :
    kinds? kinds.length (kindsContent kinds ++ rest) = some (kinds, rest) := by
  have hkinds : (kinds.map EdgeKind.tag).mapM kind? = some kinds :=
    Word.mapM_map_eq_some fun kind _ => by cases kind; rfl
  rw [kinds?, kindsContent, readMany?_wordsContent]
  simp only [Option.bind_eq_bind, Option.bind_some, hkinds]

theorem length_utf8Bytes (text : String) : (utf8Bytes text).length = text.utf8ByteSize := by
  simp [utf8Bytes]

/-- A text is read back from its bytes. -/
theorem fromUTF8?_utf8Bytes (text : String) :
    String.fromUTF8? ⟨(utf8Bytes text).toArray⟩ = some text := by
  have hbytes : (⟨(utf8Bytes text).toArray⟩ : ByteArray) = text.toByteArray := by
    simp [utf8Bytes]
  rw [hbytes, String.fromUTF8?, dif_pos text.isValidUTF8]
  rfl

theorem label?_utf8Bytes (label : String) (rest : List UInt8) :
    label? label.utf8ByteSize (utf8Bytes label ++ rest) = some (label, rest) := by
  have hfits : label.utf8ByteSize ≤ (utf8Bytes label ++ rest).length := by
    rw [List.length_append, length_utf8Bytes]
    exact Nat.le_add_right _ _
  unfold label? guard
  rw [if_pos hfits, ← length_utf8Bytes, List.take_left, List.drop_left, fromUTF8?_utf8Bytes]
  rfl

end Section

namespace Table

open Section

/-! ### Whole buffers -/

/-- The section of children. -/
def childrenBytes (t : Table) : List UInt8 := Section.bytes List.length idsContent t.children

/-- The section of edge kinds. -/
def edgesBytes (t : Table) : List UInt8 := Section.bytes List.length kindsContent t.edges

/-- The section of labels. -/
def labelsBytes (t : Table) : List UInt8 := Section.bytes String.utf8ByteSize utf8Bytes t.labels

theorem idBytes_eq_ok {ids : List Nat} (h : ∀ id ∈ ids, id < limit) :
    idBytes ids = .ok (idsContent ids) := by
  have hwords : ids.mapM (Layout.fit "child id") = .ok (ids.map Int32.ofNat) := by
    induction ids with
    | nil => rfl
    | cons id ids ih =>
      have hrest := ih fun other hother => h other (List.mem_cons_of_mem _ hother)
      rw [List.mapM_cons, Layout.fit_of_lt (h id List.mem_cons_self), hrest]
      rfl
  have hcontent : (ids.map Int32.ofNat).flatMap Word.bytes = idsContent ids :=
    List.flatMap_map _ _ _
  rw [idBytes, hwords, ← hcontent]
  rfl

/-- The numbers of nodes are smaller than the number of nodes, and that fits. -/
theorem WellFormed.ids_lt_limit {t : Table} (h : t.WellFormed) (hsize : Layout.size t < limit) :
    ∀ id ∈ t.children.flatten, id < limit := by
  intro id hid
  have := h.ids id hid
  have := Layout.count_le_size t
  omega

/-- **The buffer of a table** is its header and three sections. -/
theorem encode_eq {t : Table} {layout : Layout} (h : Layout.ofTable t = .ok layout) :
    t.encode = .ok (headerBytes layout ++ (t.childrenBytes ++ (t.edgesBytes ++ t.labelsBytes))) := by
  obtain ⟨hwell, hsize, -⟩ := Layout.ofTable_eq_ok_iff.1 h
  have hcontent : idsContent t.children.flatten = t.children.flatMap idsContent :=
    wordsContent_flatten _ _
  have hkinds : t.edges.flatten.flatMap (Word.bytes ·.tag) = t.edges.flatMap kindsContent :=
    wordsContent_flatten _ _
  rw [encode, h, bind_eq_ok_iff]
  refine ⟨layout, rfl, ?_⟩
  rw [idBytes_eq_ok (hwell.ids_lt_limit hsize), hcontent, hkinds]
  simp only [childrenBytes, edgesBytes, labelsBytes, Section.bytes, List.append_assoc]
  rfl

theorem length_headerBytes (layout : Layout) :
    (headerBytes layout).length = Layout.headerSize := rfl

theorem length_childrenBytes {t : Table} (h : t.children.length = t.count) :
    t.childrenBytes.length = Layout.childrenSize t := by
  rw [childrenBytes, Section.length_bytes, idsContent, length_flatMap_wordsContent, h]
  rfl

theorem length_edgesBytes {t : Table} (h : t.edges.length = t.count) :
    t.edgesBytes.length = Layout.edgesSize t := by
  rw [edgesBytes, Section.length_bytes, kindsContent, length_flatMap_wordsContent, h]
  rfl

theorem length_labelsBytes (t : Table) : t.labelsBytes.length = Layout.labelsSize t := by
  have hcontent : (t.labels.flatMap utf8Bytes).length = (String.join t.labels).utf8ByteSize := by
    induction t.labels with
    | nil => rfl
    | cons label labels ih =>
      rw [List.flatMap_cons, List.length_append, ih, length_utf8Bytes, String.join_cons,
        String.utf8ByteSize_append]
  rw [labelsBytes, Section.length_bytes, hcontent]
  rfl

/-! ### Reading the sections -/

theorem read?_childrenBytes {t : Table} (h : t.WellFormed) (hsize : Layout.size t < limit)
    (rest : List UInt8) :
    Section.read? ids? t.count (t.childrenBytes ++ rest) = some (t.children, rest) := by
  rw [← h.rows]
  refine Section.read?_bytes (fun ids hids => ?_) (fun ids hids rest => ?_) rest
  · have := Layout.length_row_le_size hids
    omega
  · exact ids?_idsContent
      (fun id hid => h.ids_lt_limit hsize id (List.mem_flatten_of_mem hids hid)) rest

theorem read?_edgesBytes {t : Table} (h : t.WellFormed) (hsize : Layout.size t < limit)
    (rest : List UInt8) :
    Section.read? kinds? t.count (t.edgesBytes ++ rest) = some (t.edges, rest) := by
  rw [← h.edges_length]
  refine Section.read?_bytes (fun kinds hkinds => ?_) (fun kinds _ rest => ?_) rest
  · have := Layout.length_kinds_le_size hkinds
    omega
  · exact kinds?_kindsContent kinds rest

theorem read?_labelsBytes {t : Table} (hsize : Layout.size t < limit) (rest : List UInt8) :
    Section.read? label? t.count (t.labelsBytes ++ rest) = some (t.labels, rest) := by
  refine Section.read?_bytes (fun label hlabel => ?_) (fun label _ rest => ?_) rest
  · have := Layout.utf8ByteSize_le_size t hlabel
    omega
  · exact label?_utf8Bytes label rest

/-- The bytes of a section are what stands between where it begins and where the next one begins. -/
theorem drop_starts {t : Table} (h : t.WellFormed) (layout : Layout) {buffer : List UInt8}
    (hbuffer : buffer =
      headerBytes layout ++ (t.childrenBytes ++ (t.edgesBytes ++ t.labelsBytes))) :
    buffer.drop Layout.headerSize = t.childrenBytes ++ (t.edgesBytes ++ t.labelsBytes) ∧
      buffer.drop (Layout.edgesStart t) = t.edgesBytes ++ t.labelsBytes ∧
      buffer.drop (Layout.labelsStart t) = t.labelsBytes ∧
      buffer.length = Layout.size t := by
  have hheader := length_headerBytes layout
  have hchildren := length_childrenBytes h.rows
  have hedges := length_edgesBytes h.edges_length
  have hlabels := length_labelsBytes t
  have hdrop : buffer.drop Layout.headerSize =
      t.childrenBytes ++ (t.edgesBytes ++ t.labelsBytes) := by
    rw [hbuffer, ← hheader, List.drop_left]
  have hdrop' : buffer.drop (Layout.edgesStart t) = t.edgesBytes ++ t.labelsBytes := by
    rw [Layout.edgesStart, ← List.drop_drop, hdrop, ← hchildren, List.drop_left]
  have hdrop'' : buffer.drop (Layout.labelsStart t) = t.labelsBytes := by
    rw [Layout.labelsStart, ← List.drop_drop, hdrop', ← hedges, List.drop_left]
  refine ⟨hdrop, hdrop', hdrop'', ?_⟩
  simp only [hbuffer, List.length_append, hheader, hchildren, hedges, hlabels, Layout.size,
    Layout.labelsStart, Layout.edgesStart]
  omega

/-- What a reader finds in a buffer: the fields of the layout, and at the beginning of each section
the rows of the table, which end where the next section begins, and at last with the buffer. -/
structure Found (t : Table) (layout : Layout) (buffer : List UInt8) : Prop where
  /-- The header is the first five fields of the layout. -/
  header : Word.readMany? 5 buffer = some ([layout.rootId, layout.nodeCount, layout.offsetChildren,
    layout.offsetEdges, layout.offsetLabels], buffer.drop layout.offsetChildren.toNatClampNeg)
  /-- The first field is the number of the root. -/
  rootId : Word.toNat? layout.rootId = some t.rootId
  /-- The second field is the number of nodes. -/
  nodeCount : Word.toNat? layout.nodeCount = some t.count
  /-- The children are read, up to where the edge kinds begin. -/
  children : Section.read? ids? t.count (buffer.drop layout.offsetChildren.toNatClampNeg) =
    some (t.children, buffer.drop layout.offsetEdges.toNatClampNeg)
  /-- The edge kinds are read, up to where the labels begin. -/
  edges : Section.read? kinds? t.count (buffer.drop layout.offsetEdges.toNatClampNeg) =
    some (t.edges, buffer.drop layout.offsetLabels.toNatClampNeg)
  /-- The labels are read, and nothing is left. -/
  labels : Section.read? label? t.count (buffer.drop layout.offsetLabels.toNatClampNeg) =
    some (t.labels, [])
  /-- No section begins behind the end of the buffer. -/
  starts : layout.offsetChildren.toNatClampNeg ≤ layout.offsetEdges.toNatClampNeg ∧
    layout.offsetEdges.toNatClampNeg ≤ layout.offsetLabels.toNatClampNeg ∧
    layout.offsetLabels.toNatClampNeg ≤ buffer.length
  /-- The last field of the layout is the size of the buffer. -/
  size : Word.toNat? layout.totalSize = some buffer.length

theorem found_of_encode {t : Table} {layout : Layout} (h : Layout.ofTable t = .ok layout)
    {buffer : List UInt8} (hencode : t.encode = .ok buffer) : t.Found layout buffer := by
  obtain ⟨hwell, hsize, rfl⟩ := Layout.ofTable_eq_ok_iff.1 h
  have hbuffer := Except.ok.inj (hencode.symm.trans (encode_eq h))
  obtain ⟨hchildren, hedges, hlabels, hlength⟩ := drop_starts hwell _ hbuffer
  obtain ⟨hstart, hstart', hstart''⟩ := Layout.starts_le t
  have hcount := Layout.count_le_size t
  have hroot := hwell.root
  obtain ⟨field₁, field₂, field₃⟩ := Layout.toNatClampNeg_exact hsize
  refine
    { header := ?_
      rootId := Word.toNat?_ofNat (by omega)
      nodeCount := Word.toNat?_ofNat (by omega)
      children := ?_
      edges := ?_
      labels := ?_
      starts := ?_
      size := ?_ }
  · rw [field₁, hchildren, hbuffer]
    exact Word.readMany?_bytes [(Layout.exact t).rootId, (Layout.exact t).nodeCount,
      (Layout.exact t).offsetChildren, (Layout.exact t).offsetEdges,
      (Layout.exact t).offsetLabels] _
  · rw [field₁, field₂, hchildren, hedges]
    exact read?_childrenBytes hwell hsize _
  · rw [field₂, field₃, hedges, hlabels]
    exact read?_edgesBytes hwell hsize _
  · have hread := read?_labelsBytes hsize []
    rwa [List.append_nil, ← hlabels, ← field₃] at hread
  · rw [field₁, field₂, field₃, hlength]
    exact Layout.starts_le t
  · rw [hlength]
    exact Word.toNat?_ofNat hsize

/-- Five fields that are not negative are the numbers they stand for. -/
theorem mapM_toNat?_header {t : Table} (h : t.WellFormed) (hsize : Layout.size t < limit) :
    [(Layout.exact t).rootId, (Layout.exact t).nodeCount, (Layout.exact t).offsetChildren,
      (Layout.exact t).offsetEdges, (Layout.exact t).offsetLabels].mapM Word.toNat? =
    some [t.rootId, t.count, Layout.headerSize, Layout.edgesStart t, Layout.labelsStart t] := by
  obtain ⟨hstart, hstart', hstart''⟩ := Layout.starts_le t
  have hcount := Layout.count_le_size t
  have hroot := h.root
  have hfits : ∀ n ∈ [t.rootId, t.count, Layout.headerSize, Layout.edgesStart t,
      Layout.labelsStart t], n < limit := by
    intro n hn
    simp only [List.mem_cons, List.not_mem_nil, or_false] at hn
    omega
  exact Word.mapM_toNat?_map_ofNat hfits

theorem decode?_of_encode {t : Table} {buffer : List UInt8} (h : t.encode = .ok buffer) :
    decode? buffer = some t := by
  obtain ⟨layout, hlayout, -⟩ := bind_eq_ok_iff.1 h
  have hfound := found_of_encode hlayout h
  obtain ⟨hwell, hsize, rfl⟩ := Layout.ofTable_eq_ok_iff.1 hlayout
  have hchildren := hfound.children
  have hedges := hfound.edges
  have hlabels := hfound.labels
  obtain ⟨hle, hle', hle''⟩ := hfound.starts
  obtain ⟨field₁, field₂, field₃⟩ := Layout.toNatClampNeg_exact hsize
  rw [field₁, field₂] at hle hchildren
  rw [field₂, field₃] at hle' hedges
  rw [field₃] at hle'' hlabels
  have hend : ∀ {start : Nat}, start ≤ buffer.length →
      start + (buffer.drop start).length = buffer.length := by
    intro start hstart
    rw [List.length_drop]
    omega
  rw [decode?, hfound.header]
  unfold guard
  simp only [Option.bind_eq_bind, Option.bind_some, mapM_toNat?_header hwell hsize, hchildren,
    hedges, hlabels, if_pos (hend (Nat.le_trans hle' hle'')), if_pos (hend hle'')]
  rfl

/-- **A table is read back** from the buffer that is written for it, so that different tables never
have the same buffer. -/
theorem read_back {t : Table} {layout : Layout} (h : Layout.ofTable t = .ok layout) :
    ∃ buffer, t.encode = .ok buffer ∧ t.Found layout buffer ∧ decode? buffer = some t ∧
      ∀ u : Table, u.encode = .ok buffer → u = t := by
  refine ⟨_, encode_eq h, found_of_encode h (encode_eq h), decode?_of_encode (encode_eq h), ?_⟩
  intro u hu
  exact Option.some.inj ((decode?_of_encode hu).symm.trans (decode?_of_encode (encode_eq h)))

/-- A table that no tree has: its nodes share children, and one is a child of itself. -/
def tangled : Table where
  rootId := 1
  children := [[], [1, 0, 0], [1]]
  edges := [[], [.structural, .structural, .structural], [.structural]]
  labels := ["", "für", "for"]

theorem read_back_tangled :
    Layout.ofTable tangled = .ok ⟨1, 3, 20, 48, 76, 95⟩ ∧
      ∃ buffer, tangled.encode = .ok buffer ∧ tangled.Found ⟨1, 3, 20, 48, 76, 95⟩ buffer ∧
        decode? buffer = some tangled ∧ ∀ u : Table, u.encode = .ok buffer → u = tangled :=
  have hlayout : Layout.ofTable tangled = .ok ⟨1, 3, 20, 48, 76, 95⟩ := by decide
  ⟨hlayout, read_back hlayout⟩

end Table

end AccessGraph
