import AccessGraph.Proofs.Assembly.Hanging
/-!
# Moving the tree out of a store

Slots are emptied while the tree is read out, so what has been taken cannot be seen again. In a forest
that does no harm: no slot is linked twice, so nothing leads to a slot that has been emptied.

* `Reachable` : links lead to a node from the first one.
* `Readout.Explored` : which links have been followed and which wait.
* `Readout.Reading` : what holds while trees are moved out; `Readout.Reading.take`, one slot.
* `Readout.go_links` : the frames at work, by recursion on the trees.
* `Readout.Exact`, `Readout.exact_ofSlot` : **out of a forest comes exactly the tree that hangs in it.**
* `Assembly.readout_exact` : **every assembly is sound, and its tree is read out of it.**
-/

namespace AccessGraph

/-- Links lead to a node from the first one. -/
inductive Reachable (cells : Array Cell) : Nat → Prop
  /-- The first node is there from the start. -/
  | root : Reachable cells 0
  /-- A link leads on to another node. -/
  | link {i n : Nat} {c : Cell} :
    Reachable cells i → cells[i]? = some c → n ∈ c.targets → Reachable cells n

namespace Readout

/-! ### Following links -/

/-- Links are followed from the first node on: those from the slots in `taken` have been followed, or
lead to the slots in `waiting`. -/
structure Explored (cells : Array Cell) (taken waiting : List Nat) : Prop where
  /-- The first node comes first. -/
  root : 0 ∈ taken ++ waiting
  /-- Nothing else is looked at than what links lead to. -/
  reachable : ∀ i ∈ taken ++ waiting, Reachable cells i
  /-- No link is forgotten. -/
  closed : ∀ {i c n}, i ∈ taken → cells[i]? = some c → n ∈ c.targets → n ∈ taken ++ waiting

theorem Explored.take {cells : Array Cell} {taken waiting : List Nat} {slot : Nat} {c : Cell}
    (h : Explored cells taken (slot :: waiting)) (hcell : cells[slot]? = some c) :
    Explored cells (slot :: taken) (c.targets ++ waiting) := by
  have hmem : ∀ i ∈ taken ++ slot :: waiting, i ∈ slot :: taken ++ (c.targets ++ waiting) := by
    intro i hi
    simp only [List.mem_append, List.mem_cons] at hi ⊢
    tauto
  refine ⟨hmem 0 h.root, fun i hi => ?_, fun {i c' n} hi hc' hn => ?_⟩
  · by_cases htarget : i ∈ c.targets
    · exact .link (h.reachable slot (by simp)) hcell htarget
    · refine h.reachable i ?_
      simp only [List.mem_append, List.mem_cons] at hi ⊢
      tauto
  · rcases List.mem_cons.1 hi with rfl | hi
    · obtain rfl := Option.some.inj (hcell.symm.trans hc')
      simp [hn]
    · exact hmem n (h.closed hi hc' hn)

/-- In the end the slots have been taken that links lead to. -/
theorem Explored.mem_iff {cells : Array Cell} {taken : List Nat} (h : Explored cells taken [])
    (i : Nat) : i ∈ taken ↔ Reachable cells i := by
  have hroot := h.root
  have hclosed := @h.closed
  rw [List.append_nil] at hroot hclosed
  refine ⟨fun hi => h.reachable i (by simpa using hi), fun hi => ?_⟩
  induction hi with
  | root => exact hroot
  | link _ hcell hn ih => exact hclosed ih hcell hn

/-! ### Moving trees out -/

theorem cellAt_eq {cells : Array Cell} {slot : Nat} {c : Cell} (h : cells[slot]? = some c) :
    cellAt cells slot = c := by
  simp [cellAt, h]

/-- The links of a node that is taken out are no longer in the store. -/
theorem linked_perm_emptied {cells : Array Cell} {slot : Nat} {c : Cell}
    (h : cells[slot]? = some c) :
    (linked cells).Perm (c.targets ++ linked (emptied cells slot)) := by
  obtain ⟨cells⟩ := cells
  simp only [linked, emptied, List.setIfInBounds_toArray, List.getElem?_toArray] at h ⊢
  induction cells generalizing slot with
  | nil => simp at h
  | cons first cells ih =>
    cases slot with
    | zero =>
      obtain rfl : first = c := by simpa using h
      simp [Cell.targets, Cell.empty]
    | succ slot =>
      simp only [List.set_cons_succ, List.flatMap_cons]
      refine ((ih (by simpa using h)).append_left _).trans ?_
      rw [← List.append_assoc, ← List.append_assoc]
      exact List.perm_append_comm.append_right _

/-- The state of moving trees out of a store `cells₀`: the slots in `taken` have been emptied, and the
links to the slots in `waiting` are still to be followed. -/
structure Reading (cells₀ cells : Array Cell) (taken waiting : List Nat) : Prop where
  /-- What has not been taken is where it was. -/
  rest : ∀ i, i ∉ taken → cells[i]? = cells₀[i]?
  /-- No slot is linked twice. -/
  once : (waiting ++ linked cells).Nodup
  /-- Nothing leads to a slot that has been emptied. -/
  fresh : ∀ i ∈ waiting ++ linked cells, i ∉ taken
  /-- No slot has been emptied twice. -/
  distinct : taken.Nodup
  /-- All slots lie in the store. -/
  valid : ∀ i ∈ taken, i < cells₀.size
  /-- Links are followed from the first node on. -/
  explored : Explored cells₀ taken waiting

/-- **Following one link.** -/
theorem Reading.take {cells₀ cells : Array Cell} {taken waiting : List Nat} {slot : Nat} {c : Cell}
    (h : Reading cells₀ cells taken (slot :: waiting)) (hcell : cells₀[slot]? = some c) :
    cellAt cells slot = c ∧
      Reading cells₀ (emptied cells slot) (slot :: taken) (c.targets ++ waiting) := by
  have hslot : slot ∉ taken := h.fresh slot (by simp)
  have hc : cells[slot]? = some c := by rw [h.rest slot hslot, hcell]
  have hperm : (slot :: waiting ++ linked cells).Perm
      (slot :: (c.targets ++ waiting ++ linked (emptied cells slot))) := by
    refine .cons _ (((linked_perm_emptied hc).append_left _).trans ?_)
    rw [← List.append_assoc]
    exact List.perm_append_comm.append_right _
  obtain ⟨hslot', hnodup⟩ := List.nodup_cons.1 (hperm.nodup_iff.1 h.once)
  refine ⟨cellAt_eq hc, ?_, hnodup, ?_, List.nodup_cons.2 ⟨hslot, h.distinct⟩, ?_,
    h.explored.take hcell⟩
  · intro i hi
    rw [List.mem_cons, not_or] at hi
    rw [emptied, Array.getElem?_setIfInBounds_ne (Ne.symm hi.1), h.rest i hi.2]
  · intro i hi htaken
    rcases List.mem_cons.1 htaken with rfl | htaken
    · exact hslot' hi
    · exact h.fresh i (hperm.mem_iff.2 (List.mem_cons_of_mem _ hi)) htaken
  · intro i hi
    rcases List.mem_cons.1 hi with rfl | hi
    · exact (Array.getElem?_eq_some_iff.1 hcell).1
    · exact h.valid i hi

mutual

/-- Taking a node and all below it gives its tree to the frame around it, and takes one slot for each
node of the tree. -/
theorem go_ofCell {cells₀ : Array Cell} :
    ∀ {t : Tree} {slot : Nat} {cells : Array Cell} {taken waiting : List Nat}
      (edge : EdgeKind) (next : Frame) (outer : List Frame),
      Hangs cells₀ slot t → Reading cells₀ cells taken (slot :: waiting) →
      ∃ cells' taken', Reading cells₀ cells' taken' waiting ∧
        taken'.length = taken.length + t.size ∧
        go (emptied cells slot) (slot :: taken) (.ofCell edge (cellAt cells slot)) (next :: outer) =
          go cells' taken' { next with children := (edge, t) :: next.children } outer
  | .node label ts, slot, cells, taken, waiting, edge, next, outer, h, hreading => by
    obtain ⟨links, hcell, hall⟩ := h
    obtain ⟨hat, hreading⟩ := hreading.take hcell
    obtain ⟨cells', taken', hreading', hlength, hgo⟩ :=
      go_links edge label [] (next :: outer) hall hreading
    refine ⟨cells', taken', hreading', ?_, ?_⟩
    · rw [hlength, Tree.size, List.length_cons, Nat.add_assoc]
    · rw [hat, Frame.ofCell, hgo]
      simp [go]

/-- The trees that the links of a frame lead to become its children. -/
theorem go_links {cells₀ : Array Cell} :
    ∀ {ts : List (EdgeKind × Tree)} {links : List (EdgeKind × Nat)} {cells : Array Cell}
      {taken waiting : List Nat} (kind : EdgeKind) (label : String)
      (children : List (EdgeKind × Tree)) (outer : List Frame),
      HangAll cells₀ links ts → Reading cells₀ cells taken (links.map (·.2) ++ waiting) →
      ∃ cells' taken', Reading cells₀ cells' taken' waiting ∧
        taken'.length = taken.length + Tree.sizeList ts ∧
        go cells taken ⟨kind, label, links, children⟩ outer =
          go cells' taken' ⟨kind, label, [], ts.reverse ++ children⟩ outer
  | [], [], cells, taken, waiting, kind, label, children, outer, _, hreading =>
    ⟨cells, taken, by simpa using hreading, rfl, rfl⟩
  | (_, t) :: ts, (edge, slot) :: links, cells, taken, waiting, kind, label, children, outer, h,
      hreading => by
    obtain ⟨rfl, htree, hrest⟩ := h
    obtain ⟨cells', taken', hreading', hlength, hgo⟩ :=
      go_ofCell edge ⟨kind, label, links, children⟩ outer htree hreading
    obtain ⟨cells'', taken'', hreading'', hlength', hgo'⟩ :=
      go_links kind label ((edge, t) :: children) outer hrest hreading'
    refine ⟨cells'', taken'', hreading'', ?_, ?_⟩
    · rw [hlength', hlength, Tree.sizeList, Nat.add_assoc]
    · rw [go, hgo, hgo']
      simp

end

/-- What is read out of a store is exactly what hangs in it. -/
structure Exact (cells : Array Cell) (r : Readout) : Prop where
  /-- The tree is the one and only that links lead to from the first node. -/
  hangs : ∀ t, Hangs cells 0 t ↔ t = r.tree
  /-- One slot has been emptied for each node of the tree. -/
  size : r.taken.length = r.tree.size
  /-- No slot has been emptied twice. -/
  once : r.taken.Nodup
  /-- Those slots have been emptied that links lead to. -/
  reachable : ∀ i, i ∈ r.taken ↔ Reachable cells i
  /-- All of them lie in the store. -/
  valid : ∀ i ∈ r.taken, i < cells.size

/-- **Out of a forest comes exactly the tree that hangs in it.** -/
theorem exact_ofSlot {cells : Array Cell} (hforest : Forest cells) (hcells : 0 < cells.size) :
    Exact cells (ofSlot cells 0) := by
  obtain ⟨⟨label, ts⟩, h⟩ := hforest.exists_hangs hcells
  have ⟨links, hcell, hall⟩ := h
  have hstart : Reading cells cells [] [0] :=
    { rest := fun _ _ => rfl
      once := List.nodup_cons.2 ⟨hforest.zero_not_mem_linked, hforest.once⟩
      fresh := by simp
      distinct := List.nodup_nil
      valid := by simp
      explored := ⟨by simp, by simpa using .root, by simp⟩ }
  obtain ⟨hat, hreading⟩ := hstart.take hcell
  obtain ⟨cells', taken', hreading', hlength, hgo⟩ :=
    go_links .structural label [] [] hall hreading
  have hread : ofSlot cells 0 = ⟨.node label ts, taken'⟩ := by
    rw [ofSlot, hat, Frame.ofCell, hgo]
    simp [go]
  rw [hread]
  exact
    { hangs := fun _ => ⟨fun hu => hu.unique h, fun hu => hu ▸ h⟩
      size := by rw [hlength, Tree.size, List.length_singleton]
      once := hreading'.distinct
      reachable := hreading'.explored.mem_iff
      valid := hreading'.valid }

end Readout

namespace Assembly

theorem Sound.size_pos {s : Assembly} (h : s.Sound) : 0 < s.cells.size := by
  obtain ⟨inner, hscopes, -⟩ := h.bottom
  exact h.valid ⟨0, .root⟩ (by simp [hscopes])

/-- **Every assembly is sound, and what is read out of its store is exactly what hangs in it**,
violations included. The slots that links lead to from the root are emptied once each, and no others;
then the reading ends, with the tree of their labels and links. -/
theorem readout_exact (es : List Event) :
    (start.run es).Sound ∧ 0 ∉ linked (start.run es).cells ∧
      Readout.Exact (start.run es).cells (Readout.ofSlot (start.run es).cells 0) := by
  have hsound : (start.run es).Sound := sound_run es
  exact ⟨hsound, hsound.forest.zero_not_mem_linked,
    Readout.exact_ofSlot hsound.forest hsound.size_pos⟩

end Assembly

end AccessGraph
