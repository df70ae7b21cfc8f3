import AccessGraph.Proofs.Assembly.Forest
/-!
# Trees that hang in a store

* `Hangs` : a tree is what the links below a node of a store lead to, by recursion on the tree.
* `Hangs.frame` : a tree stays where it is while the nodes from some number on stay as they are.
* `Hangs.unique` : at most one tree hangs at a node.
* `Forest.exists_hangs` : **at each node of a forest hangs a tree**.
-/

namespace AccessGraph

mutual

/-- A node and all that is linked below it make up a tree. -/
def Hangs (cells : Array Cell) (slot : Nat) : Tree → Prop
  | .node label ts => ∃ links, cells[slot]? = some ⟨label, links⟩ ∧ HangAll cells links.toList ts

/-- Links lead to trees, one by one and with the same kinds of edges. -/
def HangAll (cells : Array Cell) : (links : List (EdgeKind × Nat)) → List (EdgeKind × Tree) → Prop
  | [], [] => True
  | (kind, slot) :: links, (edge, t) :: ts =>
    kind = edge ∧ Hangs cells slot t ∧ HangAll cells links ts
  | _, _ => False

end

theorem HangAll.append {cells : Array Cell} {links more : List (EdgeKind × Nat)}
    {ts us : List (EdgeKind × Tree)} (h : HangAll cells links ts) (h' : HangAll cells more us) :
    HangAll cells (links ++ more) (ts ++ us) := by
  induction links generalizing ts with
  | nil =>
    cases ts with
    | nil => exact h'
    | cons t ts => simp [HangAll] at h
  | cons link links ih =>
    cases ts with
    | nil => simp [HangAll] at h
    | cons t ts =>
      obtain ⟨kind, slot⟩ := link
      obtain ⟨edge, t⟩ := t
      exact ⟨h.1, h.2.1, ih h.2.2⟩

/-- Structural links to trees. -/
theorem hangAll_map {α : Type} {cells : Array Cell} {slot : α → Nat} {tree : α → Tree}
    {xs : List α} (h : ∀ x ∈ xs, Hangs cells (slot x) (tree x)) :
    HangAll cells (xs.map fun x => (.structural, slot x)) (xs.map fun x => (.structural, tree x)) := by
  induction xs with
  | nil => trivial
  | cons x xs ih =>
    exact ⟨rfl, h x List.mem_cons_self, ih fun y hy => h y (List.mem_cons_of_mem _ hy)⟩

theorem hangs_leaf {cells : Array Cell} {slot : Nat} {label : String}
    (h : cells[slot]? = some (.leaf label)) : Hangs cells slot (.leaf label) :=
  ⟨#[], h, trivial⟩

mutual

/-- A tree stays where it is while the nodes from some number on do, because links lead upwards. -/
theorem Hangs.frame {cells cells' : Array Cell} (hforest : Forest cells) {base slot : Nat}
    (hsame : ∀ i, base ≤ i → i < cells.size → cells'[i]? = cells[i]?) (hbase : base ≤ slot) :
    ∀ {t : Tree}, Hangs cells slot t → Hangs cells' slot t
  | .node label ts, h => by
    obtain ⟨links, hcell, hall⟩ := h
    have hslot : slot < cells.size := (Array.getElem?_eq_some_iff.1 hcell).1
    refine ⟨links, by rw [hsame slot hbase hslot, hcell], ?_⟩
    refine HangAll.frame hforest hsame (fun n hn => ?_) hall
    have := (hforest.upward hcell hn).1
    omega

theorem HangAll.frame {cells cells' : Array Cell} (hforest : Forest cells) {base : Nat}
    (hsame : ∀ i, base ≤ i → i < cells.size → cells'[i]? = cells[i]?) :
    ∀ {links : List (EdgeKind × Nat)} {ts : List (EdgeKind × Tree)},
      (∀ n ∈ links.map (·.2), base ≤ n) → HangAll cells links ts → HangAll cells' links ts
  | [], [], _, _ => trivial
  | (kind, slot) :: links, (edge, t) :: ts, hlinks, h => by
    refine ⟨h.1, Hangs.frame hforest hsame (hlinks slot (by simp)) h.2.1, ?_⟩
    exact HangAll.frame hforest hsame (fun n hn => hlinks n (by simp at hn ⊢; exact .inr hn)) h.2.2

end

mutual

/-- At most one tree hangs at a node. -/
theorem Hangs.unique {cells : Array Cell} {slot : Nat} :
    ∀ {t u : Tree}, Hangs cells slot t → Hangs cells slot u → t = u
  | .node label ts, .node label' us, ht, hu => by
    obtain ⟨links, hcell, hts⟩ := ht
    obtain ⟨links', hcell', hus⟩ := hu
    obtain ⟨rfl, rfl⟩ := Cell.mk.inj (Option.some.inj (hcell.symm.trans hcell'))
    rw [HangAll.unique hts hus]

theorem HangAll.unique {cells : Array Cell} :
    ∀ {links : List (EdgeKind × Nat)} {ts us : List (EdgeKind × Tree)},
      HangAll cells links ts → HangAll cells links us → ts = us
  | [], [], [], _, _ => rfl
  | (_, _) :: _, (_, _) :: _, (_, _) :: _, ht, hu => by
    obtain ⟨rfl, htree, hts⟩ := ht
    obtain ⟨rfl, htree', hus⟩ := hu
    rw [Hangs.unique htree htree', HangAll.unique hts hus]

end

theorem exists_hangAll {cells : Array Cell} {links : List (EdgeKind × Nat)}
    (h : ∀ n ∈ links.map (·.2), ∃ t, Hangs cells n t) : ∃ ts, HangAll cells links ts := by
  induction links with
  | nil => exact ⟨[], trivial⟩
  | cons link links ih =>
    obtain ⟨t, ht⟩ := h link.2 (by simp)
    obtain ⟨ts, hts⟩ := ih fun n hn => h n (List.mem_cons_of_mem _ hn)
    exact ⟨(link.1, t) :: ts, rfl, ht, hts⟩

/-- **At each node of a forest hangs a tree**: following links comes to an end, because they lead
upwards. -/
theorem Forest.exists_hangs {cells : Array Cell} (h : Forest cells) {slot : Nat}
    (hslot : slot < cells.size) : ∃ t, Hangs cells slot t := by
  have hcell : cells[slot]? = some cells[slot] := Array.getElem?_eq_getElem hslot
  have hbelow : ∀ n ∈ cells[slot].targets, ∃ t, Hangs cells n t := fun n hn =>
    have := h.upward hcell hn
    h.exists_hangs this.2
  obtain ⟨ts, hts⟩ := exists_hangAll hbelow
  exact ⟨.node cells[slot].label ts, cells[slot].links, hcell, hts⟩
termination_by cells.size - slot

end AccessGraph
