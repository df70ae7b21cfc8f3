import AccessGraph.Buffer.Write
import AccessGraph.Proofs.Table.Postorder
/-!
# What the nodes of a graph stand for

A graph does not say which of its nodes are loops, accesses and variables, and their labels do not
tell either: a buffer may be called `for`. Still the nodes of a graph may have kinds that fit
together.

* `NodeKind.Allows` : what a kind says about a node and its children.
* `Tree.HasKind` : the nodes of a tree have kinds that fit together, its root the given one.
* `Table.HasKinds` : the nodes of a table have the given kinds, and these fit together.
* `Table.exists_hasKinds_ofTree` : **the kinds of a tree are kinds of its table**: numbering the
  nodes keeps them.
* `Table.HasKinds.first_is_leaf` : **the first child of a node labelled as a loop is a leaf.**
-/

namespace AccessGraph

/-- What a node of a graph stands for. -/
inductive NodeKind where
  | root
  | loop
  | memory
  | var
  deriving DecidableEq, Repr

/-- A node of this kind may have this label, children of these kinds, and these labels of children.
All children of the root are loops. A loop has its variable first, then loops and accesses. An
access has variables only, in the order of the bytes of their names. A variable has no children. -/
def NodeKind.Allows (kind : NodeKind) (label : String) (kinds : List NodeKind)
    (labels : List String) : Prop :=
  match kind with
  | .root => (label = Tree.rootLabel ∨ label = "") ∧ ∀ k ∈ kinds, k = .loop
  | .loop => label = Tree.loopLabel ∧
      ∃ rest, kinds = .var :: rest ∧ ∀ k ∈ rest, k = .loop ∨ k = .memory
  | .memory => (∀ k ∈ kinds, k = .var) ∧ labels.Pairwise fun a b => utf8Bytes a ≤ utf8Bytes b
  | .var => kinds = []

/-- The root is no child. -/
theorem NodeKind.Allows.root_not_mem {kind : NodeKind} {label : String} {kinds : List NodeKind}
    {labels : List String} (h : kind.Allows label kinds labels) : .root ∉ kinds := by
  intro hmem
  cases kind with
  | root => exact absurd (h.2 _ hmem) (by decide)
  | loop =>
    obtain ⟨-, rest, rfl, hrest⟩ := h
    rcases List.mem_cons.1 hmem with hmem | hmem
    · exact absurd hmem (by decide)
    · exact absurd (hrest _ hmem) (by decide)
  | memory => exact absurd (h.1 _ hmem) (by decide)
  | var =>
    rw [show kinds = [] from h] at hmem
    simp at hmem

namespace Tree

mutual

/-- The nodes of a tree have kinds that fit together, the root this one. -/
def HasKind (kind : NodeKind) : Tree → Prop
  | .node label children =>
    ∃ kinds, kind.Allows label kinds (children.map (·.2.label)) ∧ HaveKinds kinds children

/-- Several trees have these kinds, one each. -/
def HaveKinds : List NodeKind → List (EdgeKind × Tree) → Prop
  | [], [] => True
  | kind :: kinds, (_, t) :: ts => HasKind kind t ∧ HaveKinds kinds ts
  | _, _ => False

end

/-- If each of several trees has some kind out of a class, together they have kinds of that class.
-/
theorem exists_haveKinds {P : NodeKind → Prop} {ts : List Tree}
    (h : ∀ t ∈ ts, ∃ kind, P kind ∧ t.HasKind kind) :
    ∃ kinds, (∀ kind ∈ kinds, P kind) ∧ HaveKinds kinds (ts.map (EdgeKind.structural, ·)) := by
  induction ts with
  | nil => exact ⟨[], by simp, trivial⟩
  | cons t ts ih =>
    obtain ⟨kind, hkind, ht⟩ := h t List.mem_cons_self
    obtain ⟨kinds, hkinds, hts⟩ := ih fun u hu => h u (List.mem_cons_of_mem _ hu)
    exact ⟨kind :: kinds, List.forall_mem_cons.2 ⟨hkind, hkinds⟩, ht, hts⟩

end Tree

namespace Table

open AccessGraph.Numbering (Row rowsFrom rowsFromList rootsFrom)

/-- The kind of the node of number `id` allows its label and its children. -/
def KindFits (t : Table) (kind : Nat → NodeKind) (id : Nat) : Prop :=
  ∃ label ids labels, t.labels[id]? = some label ∧ t.children[id]? = some ids ∧
    ids.mapM (t.labels[·]?) = some labels ∧ (kind id).Allows label (ids.map kind) labels

/-- The nodes of a table have these kinds: they fit together, and only the root is one. -/
structure HasKinds (t : Table) (kind : Nat → NodeKind) : Prop where
  /-- The root is the only node of its kind. -/
  root : ∀ id, id < t.count → (kind id = .root ↔ id = t.rootId)
  /-- The kind of each node allows its label and its children. -/
  fits : ∀ id, id < t.count → t.KindFits kind id

/-! ### Labels of children -/

theorem label_of_treeAt? {t : Table} {levels id : Nat} {u : Tree}
    (h : t.treeAt? levels id = some u) : t.labels[id]? = some u.label := by
  cases levels with
  | zero => simp [treeAt?] at h
  | succ levels =>
    rw [treeAt?] at h
    obtain ⟨label, hlabel, h⟩ := Option.bind_eq_some_iff.1 h
    obtain ⟨kinds, -, h⟩ := Option.bind_eq_some_iff.1 h
    obtain ⟨ids, -, h⟩ := Option.bind_eq_some_iff.1 h
    split at h
    · obtain ⟨subtrees, -, h⟩ := Option.bind_eq_some_iff.1 h
      obtain rfl := Option.some.inj h
      exact hlabel
    · simp at h

theorem mapM_labels_of_treeAt? {t : Table} {levels : Nat} {ids : List Nat} {us : List Tree}
    (h : ids.mapM (t.treeAt? levels) = some us) :
    ids.mapM (t.labels[·]?) = some (us.map (·.label)) := by
  induction ids generalizing us with
  | nil =>
    obtain rfl : [] = us := Option.some.inj h
    rfl
  | cons id ids ih =>
    rw [List.mapM_cons] at h
    obtain ⟨u, hu, h⟩ := Option.bind_eq_some_iff.1 h
    obtain ⟨vs, hvs, h⟩ := Option.bind_eq_some_iff.1 h
    obtain rfl : u :: vs = us := Option.some.inj h
    rw [List.mapM_cons, label_of_treeAt? hu, ih hvs]
    rfl

/-! ### From trees to tables -/

/-- The kinds of the nodes from `first` on are those of a list. -/
def Assigns (kind : Nat → NodeKind) (first : Nat) (ks : List NodeKind) : Prop :=
  ∀ i k, ks[i]? = some k → kind (first + i) = k

theorem Assigns.left {kind : Nat → NodeKind} {first : Nat} {ks ls : List NodeKind}
    (h : Assigns kind first (ks ++ ls)) : Assigns kind first ks := by
  intro i k hk
  have hi : i < ks.length := (List.getElem?_eq_some_iff.1 hk).1
  exact h i k (by rw [List.getElem?_append_left hi, hk])

theorem Assigns.right {kind : Nat → NodeKind} {first : Nat} {ks ls : List NodeKind}
    (h : Assigns kind first (ks ++ ls)) : Assigns kind (first + ks.length) ls := by
  intro i k hk
  rw [Nat.add_assoc]
  refine h (ks.length + i) k ?_
  rw [List.getElem?_append_right (Nat.le_add_right _ _), Nat.add_sub_cancel_left, hk]

mutual

/-- **The kinds of a tree fit the rows of the tree**, wherever these stand among other rows. The
list holds the kinds of all nodes but the root. -/
theorem exists_kinds_rowsFrom (rootId : Nat) {rows front back : List Row} {kind : NodeKind} :
    ∀ t : Tree, rows = front ++ (rowsFrom front.length t ++ back) → t.HasKind kind →
      ∃ ks : List NodeKind, ks.length + 1 = t.size ∧ .root ∉ ks ∧
        ∀ kindOf, Assigns kindOf front.length (ks ++ [kind]) →
          ∀ i, i < t.size → (ofRows rootId rows).KindFits kindOf (front.length + i)
  | .node label children => by
    intro hrows h
    obtain ⟨kinds, hallows, hkinds⟩ := h
    have hrow := getElem?_root_of_rowsFrom hrows
    rw [rowsFrom, List.append_assoc] at hrows
    obtain ⟨ks, hlength, hroot, hfits⟩ :=
      exists_kinds_rowsFromList rootId children hrows hkinds hallows.root_not_mem
    refine ⟨ks, by rw [hlength, Tree.size, Nat.add_comm], hroot, fun kindOf hassigns i hi => ?_⟩
    obtain ⟨hroots, hinner⟩ := hfits kindOf hassigns.left
    rcases Nat.lt_or_ge i (Tree.sizeList children) with hlt | hge
    · exact hinner i hlt
    · -- the last number is that of the root
      obtain rfl : i = Tree.sizeList children := by
        rw [Tree.size] at hi
        omega
      have hkind : kindOf (front.length + Tree.sizeList children) = kind := by
        have hassigned := hassigns.right 0 kind rfl
        rwa [hlength, Nat.add_zero] at hassigned
      have hsubtrees : (rootsFrom front.length children).mapM
          ((ofRows rootId rows).treeAt? (Tree.sizeList children)) = some (children.map (·.2)) :=
        mapM_treeAt?_of_rowsFromList children hrows (Nat.le_refl _)
      have hlabels := mapM_labels_of_treeAt? hsubtrees
      rw [List.map_map] at hlabels
      refine ⟨label, rootsFrom front.length children, _, ?_, ?_, hlabels, ?_⟩
      · simp [ofRows, hrow]
      · simp [ofRows, hrow]
      · rw [hkind, hroots]
        exact hallows

theorem exists_kinds_rowsFromList (rootId : Nat) {rows front back : List Row} :
    ∀ {kinds : List NodeKind} (ts : List (EdgeKind × Tree)),
      rows = front ++ (rowsFromList front.length ts ++ back) → Tree.HaveKinds kinds ts →
      .root ∉ kinds →
      ∃ ks : List NodeKind, ks.length = Tree.sizeList ts ∧ .root ∉ ks ∧
        ∀ kindOf, Assigns kindOf front.length ks →
          (rootsFrom front.length ts).map kindOf = kinds ∧
          ∀ i, i < Tree.sizeList ts → (ofRows rootId rows).KindFits kindOf (front.length + i)
  | [], [] => by
    intro _ _ _
    refine ⟨[], rfl, by simp, fun kindOf _ => ⟨rfl, fun i hi => ?_⟩⟩
    exact absurd hi (Nat.not_lt_zero i)
  | [], (_, _) :: _ => fun _ h => h.elim
  | _ :: _, [] => fun _ h => h.elim
  | kind :: kinds, (_, t) :: ts => by
    intro hrows h hroot
    obtain ⟨ht, hts⟩ := h
    obtain ⟨hkind, hkinds⟩ := not_or.1 (mt List.mem_cons.2 hroot)
    rw [rowsFromList, List.append_assoc] at hrows
    obtain ⟨ks, hlength, hks, hfits⟩ := exists_kinds_rowsFrom rootId t hrows ht
    -- the rows of the first tree stand in front of those of the others
    have hnext : front.length + t.size = (front ++ rowsFrom front.length t).length := by
      rw [List.length_append, Numbering.length_rowsFrom]
    rw [← List.append_assoc, hnext] at hrows
    obtain ⟨ls, hlength', hls, hfits'⟩ :=
      exists_kinds_rowsFromList rootId ts hrows hts hkinds
    rw [← hnext] at hfits'
    refine ⟨ks ++ [kind] ++ ls, ?_, ?_, fun kindOf hassigns => ?_⟩
    · rw [List.length_append, List.length_append, List.length_singleton, hlength, hlength',
        Tree.sizeList]
    · simp [hks, hls, hkind]
    · have hfirst := hassigns.left
      have hothers := hassigns.right
      rw [List.length_append, List.length_singleton, hlength] at hothers
      obtain ⟨hroots, hinner⟩ := hfits' kindOf hothers
      constructor
      · have hassigned := hfirst.right 0 kind rfl
        have hid : front.length + t.size - 1 = front.length + ks.length + 0 := by omega
        rw [rootsFrom, List.map_cons, hroots, hid, hassigned]
      · intro i hi
        rcases Nat.lt_or_ge i t.size with hlt | hge
        · exact hfits kindOf hfirst i hlt
        · rw [Tree.sizeList] at hi
          obtain ⟨j, rfl⟩ := Nat.exists_eq_add_of_le hge
          rw [← Nat.add_assoc]
          exact hinner j (by omega)

end

/-- **The kinds of a tree are kinds of its table**: the last number is that of the root. -/
theorem exists_hasKinds_ofTree {t : Tree} (h : t.HasKind .root) :
    ∃ kind, (Table.ofTree t).HasKinds kind := by
  have hrows : rowsFrom 0 t = [] ++ (rowsFrom 0 t ++ []) := by simp
  obtain ⟨ks, hlength, hroot, hfits⟩ := exists_kinds_rowsFrom (t.size - 1) t hrows h
  have hcount : (ofRows (t.size - 1) (rowsFrom 0 t)).count = t.size := by
    simp [count, ofRows, Numbering.length_rowsFrom]
  have hassigns : Assigns (fun id => (ks ++ [.root])[id]?.getD .var) 0 (ks ++ [.root]) := by
    intro i k hk
    simp [hk]
  refine ⟨fun id => (ks ++ [.root])[id]?.getD .var, ?_⟩
  rw [ofTree_eq]
  refine ⟨fun id hid => ?_, fun id hid => ?_⟩
  · change _ ↔ id = t.size - 1
    rw [hcount] at hid
    rcases Nat.lt_or_ge id ks.length with hlt | hge
    · have hmem : ks[id] ∈ ks := List.getElem_mem hlt
      have hne : ks[id] ≠ .root := fun heq => hroot (heq ▸ hmem)
      simp only [List.getElem?_append_left hlt, List.getElem?_eq_getElem hlt, Option.getD_some]
      exact ⟨fun heq => absurd heq hne, fun heq => by omega⟩
    · obtain rfl : id = ks.length := by omega
      simp
      omega
  · rw [hcount] at hid
    have := hfits _ hassigns id hid
    rwa [List.length_nil, Nat.zero_add] at this

/-- **The first child of a node labelled as a loop is a leaf**, whatever the node stands for. -/
theorem HasKinds.first_is_leaf {t : Table} {kind : Nat → NodeKind} (h : t.HasKinds kind)
    {id first : Nat} {rest : List Nat} (hlabel : t.labels[id]? = some Tree.loopLabel)
    (hchildren : t.children[id]? = some (first :: rest)) : t.children[first]? = some [] := by
  have hid : id < t.count := (List.getElem?_eq_some_iff.1 hlabel).1
  obtain ⟨label, ids, labels, hlabel', hids, hlabels, hallows⟩ := h.fits id hid
  obtain rfl : label = Tree.loopLabel := Option.some.inj (hlabel'.symm.trans hlabel)
  obtain rfl : ids = first :: rest := Option.some.inj (hids.symm.trans hchildren)
  rw [List.map_cons] at hallows
  have hvar : kind first = .var := by
    cases hkind : kind id with
    | root =>
      rw [hkind] at hallows
      exact absurd hallows.1 (by decide)
    | loop =>
      rw [hkind] at hallows
      obtain ⟨-, kinds, hkinds, -⟩ := hallows
      exact (List.cons.inj hkinds).1
    | memory =>
      rw [hkind] at hallows
      exact hallows.1 _ List.mem_cons_self
    | var =>
      rw [hkind] at hallows
      exact absurd hallows (List.cons_ne_nil _ _)
  -- the child has a label, so that it is a node
  rw [List.mapM_cons] at hlabels
  obtain ⟨firstLabel, hfirst, -⟩ := Option.bind_eq_some_iff.1 hlabels
  have hlt : first < t.count := (List.getElem?_eq_some_iff.1 hfirst).1
  obtain ⟨_, ids, _, -, hids', -, hallows'⟩ := h.fits first hlt
  rw [hvar] at hallows'
  rw [hids', List.map_eq_nil_iff.1 hallows']

end Table

end AccessGraph
