import AccessGraph.Proofs.Json.Direct
import AccessGraph.Render.Listing
import Mathlib.Data.List.Forall2
/-!
# A listing loses nothing

* `Listing.getElem?_nodes_iff` : the nodes of the listing of a table are its rows, under their
  numbers.
* `Listing.toTable_ofTable` : a table whose lists have the same length is that of its listing.
* `Listing.Fits` : the numbers in a listing are those of 64 bits.
* `Listing.Node.readAs`, `Listing.readAs` : nodes and listings are read back as they are written.
* `Listing.recovered` : **each listing is read back from both of its texts, and each table from its
  listing.**
-/

namespace AccessGraph

open Json

namespace Listing

/-! ### Tables -/

/-- **The nodes of the listing of a table are its rows.** -/
theorem getElem?_nodes_iff (t : Table) (i : Nat) (n : Node) :
    (ofTable t).nodes[i]? = some n ↔ n.id = i ∧ t.labels[i]? = some n.label ∧
      t.children[i]? = some n.children ∧ t.edges[i]? = some n.edges := by
  obtain ⟨id, label, children, edges⟩ := n
  rw [ofTable, List.getElem?_map, List.getElem?_zipIdx, Option.map_map, Option.map_eq_some_iff]
  simp only [Nat.zero_add, List.getElem?_zip_eq_some, Function.comp_apply, Node.mk.injEq]
  constructor
  · rintro ⟨row, ⟨⟨hlabel, hchildren⟩, hedges⟩, hid, rfl, rfl, rfl⟩
    exact ⟨hid.symm, hlabel, hchildren, hedges⟩
  · rintro ⟨hid, hlabel, hchildren, hedges⟩
    exact ⟨((label, children), edges), ⟨⟨hlabel, hchildren⟩, hedges⟩, hid.symm, rfl, rfl, rfl⟩

/-- What the nodes of a listing have in common with the rows that they are made from. -/
theorem map_nodes_ofTable {α : Type} (t : Table) (ofNode : Node → α)
    (ofRow : (String × List Nat) × List EdgeKind → α)
    (h : ∀ row id, ofNode ⟨id, row.1.1, row.1.2, row.2⟩ = ofRow row) :
    (ofTable t).nodes.map ofNode = ((t.labels.zip t.children).zip t.edges).map ofRow := by
  rw [ofTable, List.map_map, ← List.zipIdx_map_fst 0 ((t.labels.zip t.children).zip t.edges),
    List.map_map, List.zipIdx_map_fst]
  exact List.map_congr_left fun p _ => h p.1 p.2

/-- **A table whose lists have the same length is that of its listing**, which then has as many nodes
as it says. -/
theorem toTable_ofTable {t : Table} (hchildren : t.children.length = t.count)
    (hedges : t.edges.length = t.count) :
    (ofTable t).toTable = t ∧ (ofTable t).nodeCount = (ofTable t).nodes.length := by
  have hlength : t.labels.length = t.count := rfl
  have hzip : (t.labels.zip t.children).length = t.count := by
    rw [List.length_zip, hlength, hchildren, Nat.min_self]
  have hlabels : (ofTable t).nodes.map (·.label) = t.labels := by
    rw [map_nodes_ofTable t _ (Prod.fst ∘ Prod.fst) fun _ _ => rfl, ← List.map_map,
      List.map_fst_zip (by omega), List.map_fst_zip (by omega)]
  have hchildren' : (ofTable t).nodes.map (·.children) = t.children := by
    rw [map_nodes_ofTable t _ (Prod.snd ∘ Prod.fst) fun _ _ => rfl, ← List.map_map,
      List.map_fst_zip (by omega), List.map_snd_zip (by omega)]
  have hedges' : (ofTable t).nodes.map (·.edges) = t.edges := by
    rw [map_nodes_ofTable t _ Prod.snd fun _ _ => rfl, List.map_snd_zip (by omega)]
  refine ⟨?_, ?_⟩
  · rw [toTable, hlabels, hchildren', hedges']
    rfl
  · have hnodes := congrArg List.length hlabels
    rw [List.length_map] at hnodes
    exact hnodes.symm

/-! ### Texts -/

/-- The numbers of a node are those of 64 bits. -/
structure Node.Fits (n : Node) : Prop where
  /-- Its own number. -/
  id : n.id < UInt64.size
  /-- Those of its children. -/
  children : ∀ child ∈ n.children, child < UInt64.size

/-- The numbers in a listing are those of 64 bits, which may or may not name nodes. -/
structure Fits (l : Listing) : Prop where
  /-- The number of the root. -/
  rootId : l.rootId < UInt64.size
  /-- The number of nodes. -/
  nodeCount : l.nodeCount < UInt64.size
  /-- Those in the nodes. -/
  nodes : ∀ n ∈ l.nodes, n.Fits

instance (n : Node) : Decidable n.Fits :=
  decidable_of_iff (n.id < UInt64.size ∧ ∀ child ∈ n.children, child < UInt64.size)
    ⟨fun h => ⟨h.1, h.2⟩, fun h => ⟨h.id, h.children⟩⟩

instance (l : Listing) : Decidable l.Fits :=
  decidable_of_iff (l.rootId < UInt64.size ∧ l.nodeCount < UInt64.size ∧ ∀ n ∈ l.nodes, n.Fits)
    ⟨fun h => ⟨h.1, h.2.1, h.2.2⟩, fun h => ⟨h.rootId, h.nodeCount, h.nodes⟩⟩

section Text

variable {spacing : Spacing} {fuel : Nat}

theorem named_name (kind : EdgeKind) : Enumeration.named kindNames kind.name = .ok kind := by
  cases kind
  rfl

/-- **A node is read back.** -/
theorem Node.readAs (hs : spacing.IsBlank) {n : Node} (h : n.Fits) :
    ReadAs spacing fuel (Node.read fuel) n.toJson n := by
  have hchildren : List.Forall₂ (ReadAs spacing fuel readNatural) (n.children.map natural)
      n.children :=
    List.forall₂_map_left_iff.2
      (List.forall₂_same.2 fun child hchild => readAs_natural (h.children child hchild))
  have hedges : List.Forall₂ (ReadAs spacing fuel (Enumeration.read kindNames))
      (n.edges.map fun kind => .string kind.name) n.edges :=
    List.forall₂_map_left_iff.2
      (List.forall₂_same.2 fun kind _ => Enumeration.readAs (named_name kind))
  have hrecord : ReadAs spacing fuel (readRecord (readPart fuel) "struct NodeDto" Node.fields fuel)
      n.toJson (n.id, n.label, n.children, n.edges, ()) := readAs_record hs _ (by decide)
    ⟨rfl, readAs_natural h.id, rfl, readAs_label n.label, rfl, readAs_array hs hchildren, rfl,
      readAs_array hs hedges, trivial⟩
  exact hrecord.map fun (id, label, children, edges, ()) => Node.mk id label children edges

/-- **A listing is read back.** -/
theorem readAs (hs : spacing.IsBlank) {l : Listing} (h : l.Fits) :
    ReadAs spacing fuel (read fuel) l.toJson l := by
  have hnodes : List.Forall₂ (ReadAs spacing fuel (Node.read fuel)) (l.nodes.map Node.toJson)
      l.nodes :=
    List.forall₂_map_left_iff.2 (List.forall₂_same.2 fun n hn => Node.readAs hs (h.nodes n hn))
  have hrecord : ReadAs spacing fuel (readRecord (readPart fuel) "struct GraphDto" fields fuel)
      l.toJson (l.rootId, l.nodeCount, l.nodes, ()) := readAs_record hs _ (by decide)
    ⟨rfl, readAs_natural h.rootId, rfl, readAs_natural h.nodeCount, rfl, readAs_array hs hnodes,
      trivial⟩
  exact hrecord.map fun (rootId, nodeCount, nodes, ()) => Listing.mk rootId nodeCount nodes

end Text

/-- **Each listing is read back from both of its texts, and each table from its listing**: a listing
may hold any numbers of 64 bits and any strings, and a table has to have lists of the same length. -/
theorem recovered :
    (∀ l : Listing, l.Fits → ofJson l.toJson.compact = .ok l ∧ ofJson l.toJson.pretty = .ok l) ∧
      ∀ t : Table, t.children.length = t.count → t.edges.length = t.count →
        (ofTable t).toTable = t ∧ (ofTable t).nodeCount = (ofTable t).nodes.length ∧
          ∀ (i : Nat) (n : Node), (ofTable t).nodes[i]? = some n ↔
            n.id = i ∧ t.labels[i]? = some n.label ∧ t.children[i]? = some n.children ∧
              t.edges[i]? = some n.edges := by
  refine ⟨fun l hl => readText_of_readAs fun spacing fuel hs => readAs hs hl, ?_⟩
  intro t hchildren hedges
  obtain ⟨htable, hcount⟩ := toTable_ofTable hchildren hedges
  exact ⟨htable, hcount, getElem?_nodes_iff t⟩

/-- A listing in which nothing fits together: the greatest numbers, a label that looks like the end
of its node, and a node with fewer children than edges. -/
def jumbled : Listing where
  rootId := 18446744073709551615
  nodeCount := 0
  nodes := [⟨18446744073709551615, "\"],\"edges\":[]\x7d\\\n\x00é", [0, 18446744073709551615], []⟩,
    ⟨0, "", [], [.structural]⟩]

theorem recovered_jumbled :
    jumbled.Fits ∧ ofJson jumbled.toJson.compact = .ok jumbled ∧
      ofJson jumbled.toJson.pretty = .ok jumbled ∧
      (ofTable jumbled.toTable).toTable = jumbled.toTable ∧ ofTable jumbled.toTable ≠ jumbled := by
  have hfits : jumbled.Fits := by decide
  obtain ⟨hcompact, hpretty⟩ := recovered.1 jumbled hfits
  exact ⟨hfits, hcompact, hpretty, (recovered.2 jumbled.toTable rfl rfl).1, by decide⟩

end Listing

end AccessGraph
