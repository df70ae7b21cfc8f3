import AccessGraph.Proofs.Assembly.Verdict
import Mathlib.Data.List.Perm.Basic
import Mathlib.Data.List.Nodup
/-!
# The store of an assembly is a forest

Every event lays down its nodes behind all others and links the first of them below an open scope,
so links lead from smaller numbers to larger ones and no node is linked twice.

* `Cell.targets`, `linked` : the numbers that a node, and a whole store, links to.
* `Forest` : links lead upwards inside the store, and no number is linked twice.
* `Assembly.Sound` : the store is a forest, and the open scopes are numbered upwards from the root.
* `Assembly.sound_run` : **every assembly is sound, violations included.**
-/

namespace AccessGraph

/-- The numbers of the nodes right below a node. -/
def Cell.targets (c : Cell) : List Nat := c.links.toList.map (·.2)

/-- The numbers that are linked from somewhere in a store. -/
def linked (cells : Array Cell) : List Nat := cells.toList.flatMap Cell.targets

/-- A store without cycles and without sharing. -/
structure Forest (cells : Array Cell) : Prop where
  /-- Links lead upwards, and to a node of the store. -/
  upward : ∀ {i c n}, cells[i]? = some c → n ∈ c.targets → i < n ∧ n < cells.size
  /-- No node is linked twice. -/
  once : (linked cells).Nodup

theorem mem_linked {cells : Array Cell} {n : Nat} :
    n ∈ linked cells ↔ ∃ (i : Nat) (c : Cell), cells[i]? = some c ∧ n ∈ c.targets := by
  simp only [linked, List.mem_flatMap, Array.mem_toList_iff, Array.mem_iff_getElem?]
  constructor
  · rintro ⟨c, ⟨i, hi⟩, hn⟩
    exact ⟨i, c, hi, hn⟩
  · rintro ⟨i, c, hi, hn⟩
    exact ⟨c, ⟨i, hi⟩, hn⟩

theorem Forest.lt_size_of_mem_linked {cells : Array Cell} (h : Forest cells) {n : Nat}
    (hn : n ∈ linked cells) : n < cells.size := by
  obtain ⟨i, c, hi, hc⟩ := mem_linked.1 hn
  exact (h.upward hi hc).2

/-- Nothing leads to the first node of a forest. -/
theorem Forest.zero_not_mem_linked {cells : Array Cell} (h : Forest cells) :
    0 ∉ linked cells := by
  intro hn
  obtain ⟨i, c, hi, hc⟩ := mem_linked.1 hn
  exact absurd (h.upward hi hc).1 (Nat.not_lt_zero i)

@[simp] theorem Cell.targets_leaf (label : String) : (Cell.leaf label).targets = [] := rfl

@[simp] theorem Cell.targets_link (c : Cell) (n : Nat) :
    (c.link n).targets = c.targets ++ [n] := by
  simp [Cell.targets, Cell.link]

namespace Assembly

/-! ### Laying down nodes -/

/-- The links from a node to the leaves that are laid down from number `first` on. -/
def leafLinks (first count : Nat) : List (EdgeKind × Nat) :=
  (List.range' first count).map (.structural, ·)

theorem lay_eq (cells : Array Cell) (label : String) (leaves : List String) :
    lay cells label leaves =
      cells.push ⟨label, (leafLinks (cells.size + 1) leaves.length).toArray⟩ ++
        (leaves.map Cell.leaf).toArray := by
  have hlinks : (leaves.zipIdx (cells.size + 1)).map (fun leaf => (EdgeKind.structural, leaf.2)) =
      leafLinks (cells.size + 1) leaves.length := by
    rw [leafLinks, ← List.zipIdx_map_snd, List.map_map]
    rfl
  rw [← hlinks]
  rfl

@[simp] theorem size_lay (cells : Array Cell) (label : String) (leaves : List String) :
    (lay cells label leaves).size = cells.size + 1 + leaves.length := by
  simp [lay_eq]
  omega

theorem getElem?_lay_of_lt {cells : Array Cell} {i : Nat} (h : i < cells.size) (label : String)
    (leaves : List String) : (lay cells label leaves)[i]? = cells[i]? := by
  rw [lay_eq, Array.getElem?_append_left (by simp; omega), Array.getElem?_push,
    if_neg (by omega)]

theorem getElem?_lay_size (cells : Array Cell) (label : String) (leaves : List String) :
    (lay cells label leaves)[cells.size]? =
      some ⟨label, (leafLinks (cells.size + 1) leaves.length).toArray⟩ := by
  rw [lay_eq, Array.getElem?_append_left (by simp), Array.getElem?_push_size]

theorem getElem?_lay_leaf (cells : Array Cell) (label : String) (leaves : List String) (i : Nat) :
    (lay cells label leaves)[cells.size + 1 + i]? = leaves[i]?.map Cell.leaf := by
  rw [lay_eq, Array.getElem?_append_right (by simp)]
  simp

@[simp] theorem size_attach (cells : Array Cell) (parent : Option Scope) (child : Nat) :
    (attach cells parent child).size = cells.size := by
  cases parent <;> simp [attach]

theorem getElem?_attach (cells : Array Cell) (parent : Option Scope) (child i : Nat) :
    (attach cells parent child)[i]? =
      if parent.map (·.cell) = some i then cells[i]?.map (·.link child) else cells[i]? := by
  cases parent with
  | none => simp [attach]
  | some scope => simp [attach, Array.getElem?_modify]

/-! ### Links -/

theorem linked_lay (cells : Array Cell) (label : String) (leaves : List String) :
    linked (lay cells label leaves) =
      linked cells ++ List.range' (cells.size + 1) leaves.length := by
  have hleaves : (leaves.map Cell.leaf).flatMap Cell.targets = [] := by
    simp [List.flatMap_map]
  have htargets : Cell.targets ⟨label, (leafLinks (cells.size + 1) leaves.length).toArray⟩ =
      List.range' (cells.size + 1) leaves.length := by
    simp [Cell.targets, leafLinks, Function.comp_def]
  simp [linked, lay_eq, htargets, hleaves]

/-- A new link is one more number linked. -/
theorem linked_modify_perm (cells : Array Cell) {i : Nat} (hi : i < cells.size) (n : Nat) :
    (linked (cells.modify i (·.link n))).Perm (n :: linked cells) := by
  obtain ⟨cells⟩ := cells
  simp only [linked, Array.toList_modify, List.size_toArray] at hi ⊢
  induction cells generalizing i with
  | nil => simp at hi
  | cons c cells ih =>
    cases i with
    | zero =>
      simp only [List.modify_zero_cons, List.flatMap_cons, Cell.targets_link, List.append_assoc]
      exact List.perm_middle
    | succ i =>
      simp only [List.modify_succ_cons, List.flatMap_cons]
      exact ((ih (by simpa using hi)).append_left _).trans List.perm_middle

/-! ### A node with leaves, linked below another one -/

section AttachLay

variable {cells : Array Cell} {parent : Option Scope} (label : String) (leaves : List String)

/-- A scope among the old nodes does not have the number of a new one. -/
theorem map_cell_ne (hparent : ∀ scope, parent = some scope → scope.cell < cells.size) {i : Nat}
    (hi : cells.size ≤ i) : parent.map (·.cell) ≠ some i := by
  intro heq
  obtain ⟨scope, hscope, rfl⟩ := Option.map_eq_some_iff.1 heq
  have := hparent scope hscope
  omega

theorem getElem?_attach_lay_of_lt {i : Nat} (hi : i < cells.size) :
    (attach (lay cells label leaves) parent cells.size)[i]? =
      if parent.map (·.cell) = some i then cells[i]?.map (·.link cells.size) else cells[i]? := by
  rw [getElem?_attach, getElem?_lay_of_lt hi]

theorem getElem?_attach_lay_size (hparent : ∀ scope, parent = some scope → scope.cell < cells.size) :
    (attach (lay cells label leaves) parent cells.size)[cells.size]? =
      some ⟨label, (leafLinks (cells.size + 1) leaves.length).toArray⟩ := by
  rw [getElem?_attach, if_neg (map_cell_ne hparent (Nat.le_refl _)), getElem?_lay_size]

theorem getElem?_attach_lay_leaf (hparent : ∀ scope, parent = some scope → scope.cell < cells.size)
    (i : Nat) :
    (attach (lay cells label leaves) parent cells.size)[cells.size + 1 + i]? =
      leaves[i]?.map Cell.leaf := by
  rw [getElem?_attach, if_neg (map_cell_ne hparent (by omega)), getElem?_lay_leaf]

/-- The store stays a forest. -/
theorem forest_attach_lay (h : Forest cells)
    (hparent : ∀ scope, parent = some scope → scope.cell < cells.size) :
    Forest (attach (lay cells label leaves) parent cells.size) where
  upward := by
    intro i c n hi hn
    simp only [size_attach, size_lay]
    rcases Nat.lt_trichotomy i cells.size with hlt | rfl | hgt
    · rw [getElem?_attach_lay_of_lt label leaves hlt] at hi
      split at hi
      · obtain ⟨old, hold, rfl⟩ := Option.map_eq_some_iff.1 hi
        rw [Cell.targets_link, List.mem_append, List.mem_singleton] at hn
        rcases hn with hn | rfl
        · have := h.upward hold hn
          omega
        · omega
      · have := h.upward hi hn
        omega
    · rw [getElem?_attach_lay_size label leaves hparent] at hi
      obtain rfl := Option.some.inj hi
      simp only [Cell.targets, leafLinks, List.map_map, Function.comp_def, List.map_id',
        List.mem_range'_1] at hn
      omega
    · obtain ⟨j, rfl⟩ := Nat.exists_eq_add_of_lt hgt
      rw [Nat.add_right_comm, getElem?_attach_lay_leaf label leaves hparent] at hi
      obtain ⟨leaf, -, rfl⟩ := Option.map_eq_some_iff.1 hi
      simp at hn
  once := by
    have hlt : ∀ n ∈ linked cells, n < cells.size := fun n => h.lt_size_of_mem_linked
    have hlaid : (linked cells ++ List.range' (cells.size + 1) leaves.length).Nodup := by
      refine h.once.append List.nodup_range' ?_
      intro n hold hnew
      have := hlt n hold
      have := (List.mem_range'_1.1 hnew).1
      omega
    -- the numbers of the leaves are new, and so is that of the node itself
    cases parent with
    | none => simpa [attach, linked_lay] using hlaid
    | some scope =>
      have hscope := hparent scope rfl
      rw [attach, (linked_modify_perm _ (by simp; omega) _).nodup_iff, linked_lay]
      refine List.nodup_cons.2 ⟨?_, hlaid⟩
      intro hmem
      rcases List.mem_append.1 hmem with hold | hnew
      · exact absurd (hlt _ hold) (Nat.lt_irrefl _)
      · have := (List.mem_range'_1.1 hnew).1
        omega

end AttachLay

/-! ### Soundness -/

/-- The store is a forest, and the open scopes are numbered upwards from the root. -/
structure Sound (s : Assembly) : Prop where
  forest : Forest s.cells
  /-- The root is open below all other scopes, and is the only one of its kind. -/
  bottom : ∃ inner, s.scopes = inner ++ [⟨0, .root⟩] ∧ ∀ scope ∈ inner, scope.kind ≠ .root
  /-- The innermost scope has the largest number. -/
  upward : (s.scopes.map (·.cell)).Pairwise (· > ·)
  /-- All open scopes have a node. -/
  valid : ∀ scope ∈ s.scopes, scope.cell < s.cells.size

theorem sound_start : start.Sound where
  forest := by
    refine ⟨fun {i c n} hi hn => ?_, by decide⟩
    cases i with
    | zero =>
      obtain rfl : Cell.leaf Tree.rootLabel = c := by simpa [start] using hi
      simp at hn
    | succ i => simp [start] at hi
  bottom := ⟨[], rfl, by simp⟩
  upward := by simp [start]
  valid := by simp [start]

/-- The scope below which a new node is linked is one of the open ones. -/
theorem Sound.openScope {s : Assembly} (h : s.Sound) {kind : ScopeKind} (hkind : kind ≠ .root)
    (label : String) (leaves : List String) {parent : Option Scope}
    (hparent : ∀ scope, parent = some scope → scope ∈ s.scopes) :
    (s.openScope kind label leaves parent).Sound where
  forest := forest_attach_lay label leaves h.forest fun scope heq => h.valid scope (hparent scope heq)
  bottom := by
    obtain ⟨inner, hscopes, hinner⟩ := h.bottom
    refine ⟨⟨s.cells.size, kind⟩ :: inner, by simp [Assembly.openScope, hscopes], ?_⟩
    simpa [hkind] using hinner
  upward := by
    simp only [Assembly.openScope, List.map_cons, List.pairwise_cons]
    refine ⟨fun n hn => ?_, h.upward⟩
    obtain ⟨scope, hscope, rfl⟩ := List.mem_map.1 hn
    exact h.valid scope hscope
  valid := by
    intro scope hscope
    simp only [Assembly.openScope, size_attach, size_lay]
    rcases List.mem_cons.1 hscope with rfl | hold
    · dsimp only
      omega
    · have := h.valid scope hold
      omega

theorem Sound.exit {s : Assembly} (h : s.Sound) (kind : ScopeKind) : (s.exit kind).Sound := by
  unfold Assembly.exit
  split
  · exact ⟨h.forest, h.bottom, h.upward, h.valid⟩
  · rename_i scope outer hscopes
    split
    · exact ⟨h.forest, h.bottom, h.upward, h.valid⟩
    · rename_i hroot
      split
      · obtain ⟨inner, hs, hinner⟩ := h.bottom
        have hupward := h.upward
        have hvalid := h.valid
        rw [hscopes] at hs hupward hvalid
        refine ⟨h.forest, ?_, (List.pairwise_cons.1 hupward).2,
          fun scope hscope => hvalid scope (List.mem_cons_of_mem _ hscope)⟩
        cases inner with
        | nil =>
          -- only the root is open, and it cannot be left
          obtain ⟨rfl, -⟩ := List.cons.inj hs
          exact absurd rfl hroot
        | cons first inner =>
          obtain ⟨-, hrest⟩ := List.cons.inj hs
          exact ⟨inner, hrest, fun scope hscope => hinner scope (List.mem_cons_of_mem _ hscope)⟩
      · exact ⟨h.forest, h.bottom, h.upward, h.valid⟩

/-- **One event** keeps an assembly sound, whatever it is. -/
theorem Sound.step {s : Assembly} (h : s.Sound) (e : Event) : (s.step e).Sound := by
  have hcounted : { s with events := s.events + 1 }.Sound := ⟨h.forest, h.bottom, h.upward, h.valid⟩
  cases hv : s.violation with
  | some v => rwa [step_of_violation hv]
  | none =>
    rw [step_of_sound hv]
    cases e with
    | enterLoop v n x =>
      exact hcounted.openScope (by decide) _ _ fun scope heq => List.mem_of_mem_head? heq
    | enterMemory buffer index =>
      exact hcounted.openScope (by decide) _ _ fun scope heq => List.mem_of_find?_eq_some heq
    | exitLoop => exact hcounted.exit .loop
    | exitMemory => exact hcounted.exit .memory

theorem Sound.run {s : Assembly} (h : s.Sound) (es : List Event) : (s.run es).Sound := by
  induction es generalizing s with
  | nil => exact h
  | cons e es ih =>
    rw [run_cons]
    exact ih (h.step e)

/-- **Every assembly is sound**, violations included. -/
theorem sound_run (es : List Event) : (start.run es).Sound := sound_start.run es

end Assembly

end AccessGraph
