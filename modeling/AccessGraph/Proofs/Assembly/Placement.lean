import AccessGraph.Proofs.Assembly.Readout
import AccessGraph.Proofs.Event.Block
/-!
# Where the scopes of a stream are placed

Taking in a whole stream of scopes leaves the open scopes as they were. What is laid down are trees
behind the old nodes, and links to those that hang below an open scope.

* `Assembly.parent?` : the open scope that a new scope hangs below.
* `Assembly.Entry` : a tree that has been laid down.
* `Assembly.Grown` : the effect of a whole stream of scopes, as the list of its entries.
* `Assembly.ofEvents_eventsList` : **a stream of scopes assembles to the tree of its scopes.**
-/

namespace AccessGraph

namespace Cell

/-- Links to some more nodes below. -/
def linkAll (c : Cell) (ns : List Nat) : Cell :=
  { c with links := c.links ++ (ns.map (EdgeKind.structural, ·)).toArray }

@[simp] theorem linkAll_nil (c : Cell) : c.linkAll [] = c := by
  simp [linkAll]

theorem link_eq_linkAll (c : Cell) (n : Nat) : c.link n = c.linkAll [n] := by
  simp [link, linkAll]

theorem linkAll_linkAll (c : Cell) (ns ms : List Nat) :
    (c.linkAll ns).linkAll ms = c.linkAll (ns ++ ms) := by
  simp [linkAll]

end Cell

namespace Assembly

/-- The open scope that a new scope of some kind hangs below. -/
def parent? (s : Assembly) (kind : ScopeKind) : Option Scope :=
  if kind = .loop then s.innermost? else s.innermostLoop?

theorem mem_scopes_of_parent? {s : Assembly} {kind : ScopeKind} {scope : Scope}
    (h : s.parent? kind = some scope) : scope ∈ s.scopes := by
  unfold parent? at h
  split at h
  · exact List.mem_of_mem_head? h
  · exact List.mem_of_find?_eq_some h

theorem Sound.parent?_lt {s : Assembly} {kind : ScopeKind} (h : s.Sound) :
    ∀ scope, s.parent? kind = some scope → scope.cell < s.cells.size :=
  fun scope hscope => h.valid scope (mem_scopes_of_parent? hscope)

/-- A scope that has just been opened is the parent of what it catches. -/
theorem parent?_of_scopes {s s' : Assembly} {scope : Scope} (h : s'.scopes = scope :: s.scopes)
    (kind : ScopeKind) :
    s'.parent? kind = if scope.kind.catches kind then some scope else s.parent? kind := by
  obtain ⟨cell, outer⟩ := scope
  cases kind <;> cases outer <;>
    simp [parent?, innermost?, innermostLoop?, h, ScopeKind.catches]

/-- A tree that has been laid down. -/
structure Entry where
  /-- The kind of the scope that it is the tree of. -/
  kind : ScopeKind
  /-- The number of its root. -/
  number : Nat
  /-- The tree. -/
  tree : Tree

/-- The entries that hang below the node of number `i`. -/
def numbersBelow (s : Assembly) (entries : List Entry) (i : Nat) : List Nat :=
  (entries.filter fun e => (s.parent? e.kind).map (·.cell) = some i).map (·.number)

/-- The effect of a whole stream of scopes. -/
structure Grown (s s' : Assembly) (entries : List Entry) : Prop where
  /-- The same scopes are open. -/
  scopes : s'.scopes = s.scopes
  /-- Nothing has been violated. -/
  sound : s'.violation = none
  /-- Nodes are added behind the old ones. -/
  size_le : s.cells.size ≤ s'.cells.size
  /-- The old nodes are linked to the entries that hang below them. -/
  old : ∀ i, i < s.cells.size → s'.cells[i]? = s.cells[i]?.map (·.linkAll (s.numbersBelow entries i))
  /-- The trees of the entries are laid down behind the old nodes. -/
  hangs : ∀ e ∈ entries, s.cells.size ≤ e.number ∧ Hangs s'.cells e.number e.tree

theorem Grown.refl {s : Assembly} (h : s.violation = none) : Grown s s [] where
  scopes := rfl
  sound := h
  size_le := Nat.le_refl _
  old := by simp [numbersBelow]
  hangs := by simp

theorem numbersBelow_cons (s : Assembly) (e : Entry) (entries : List Entry) (i : Nat) :
    s.numbersBelow (e :: entries) i =
      if (s.parent? e.kind).map (·.cell) = some i then e.number :: s.numbersBelow entries i
      else s.numbersBelow entries i := by
  unfold numbersBelow
  by_cases h : (s.parent? e.kind).map (·.cell) = some i
  · rw [List.filter_cons_of_pos (by simpa using h), if_pos h, List.map_cons]
  · rw [List.filter_cons_of_neg (by simpa using h), if_neg h]

theorem numbersBelow_append (s : Assembly) (entries more : List Entry) (i : Nat) :
    s.numbersBelow (entries ++ more) i = s.numbersBelow entries i ++ s.numbersBelow more i := by
  simp [numbersBelow]

/-- Only the nodes of open scopes have something hung below them. -/
theorem Sound.numbersBelow_eq_nil {s : Assembly} (h : s.Sound) (entries : List Entry) {i : Nat}
    (hi : s.cells.size ≤ i) : s.numbersBelow entries i = [] := by
  have hnone : ∀ e ∈ entries, ¬ (s.parent? e.kind).map (·.cell) = some i := fun e _ =>
    map_cell_ne h.parent?_lt hi
  simpa [numbersBelow] using hnone

theorem Grown.trans {s s' s'' : Assembly} {entries more : List Entry} (h : Grown s s' entries)
    (h' : Grown s' s'' more) (hs : s.Sound) (hs' : s'.Sound) : Grown s s'' (entries ++ more) := by
  have hparent : s'.parent? = s.parent? := by
    funext kind
    simp [parent?, innermost?, innermostLoop?, h.scopes]
  have hbelow : ∀ i, s'.numbersBelow more i = s.numbersBelow more i := by
    intro i
    simp [numbersBelow, hparent]
  refine ⟨h'.scopes.trans h.scopes, h'.sound, Nat.le_trans h.size_le h'.size_le, ?_, ?_⟩
  · intro i hi
    rw [h'.old i (Nat.lt_of_lt_of_le hi h.size_le), h.old i hi, hbelow, numbersBelow_append,
      Option.map_map]
    congr 1
    funext c
    exact Cell.linkAll_linkAll _ _ _
  · intro e he
    rcases List.mem_append.1 he with he | he
    · -- a tree that is already there lies behind all open scopes, so nothing is linked below it
      obtain ⟨hnumber, htree⟩ := h.hangs e he
      refine ⟨hnumber, htree.frame hs'.forest (fun i hi hlt => ?_) hnumber⟩
      rw [h'.old i hlt, hbelow, hs.numbersBelow_eq_nil more hi]
      simp
    · obtain ⟨hnumber, htree⟩ := h'.hangs e he
      exact ⟨Nat.le_trans h.size_le hnumber, htree⟩

/-! ### One scope -/

/-- The kind and the tree of an entry. -/
def Entry.hung (e : Entry) : ScopeKind × Tree := (e.kind, e.tree)

theorem caught_map_hung (kind : ScopeKind) (entries : List Entry) :
    Block.caught kind (entries.map Entry.hung) =
      (entries.filter (kind.catches ·.kind)).map (·.tree) := by
  simp [Block.caught, List.filter_map, Entry.hung, Function.comp_def]

theorem passed_map_hung (kind : ScopeKind) (entries : List Entry) :
    Block.passed kind (entries.map Entry.hung) =
      (entries.filter (!kind.catches ·.kind)).map Entry.hung := by
  simp [Block.passed, List.filter_map, Entry.hung, Function.comp_def]

theorem hangAll_leafLinks {cells : Array Cell} {first : Nat} {leaves : List String}
    (h : ∀ i label, leaves[i]? = some label → cells[first + i]? = some (.leaf label)) :
    HangAll cells (leafLinks first leaves.length)
      ((leaves.map Tree.leaf).map (.structural, ·)) := by
  induction leaves generalizing first with
  | nil => trivial
  | cons label leaves ih =>
    refine ⟨rfl, hangs_leaf (h 0 label rfl), ih fun i l hl => ?_⟩
    rw [Nat.add_assoc, Nat.add_comm 1]
    exact h (i + 1) l hl

section Scope

variable {s opened closed : Assembly} {kind : ScopeKind} {label : String} {leaves : List String}
  {entries : List Entry}

/-- What is caught by a scope that has just been opened hangs below its node, and what passes hangs
where it would hang without the scope. -/
theorem Sound.numbersBelow_opened (hs : s.Sound)
    (hscopes : opened.scopes = ⟨s.cells.size, kind⟩ :: s.scopes) :
    opened.numbersBelow entries s.cells.size =
        (entries.filter (kind.catches ·.kind)).map (·.number) ∧
      ∀ i, i < s.cells.size → opened.numbersBelow entries i =
        s.numbersBelow (entries.filter (!kind.catches ·.kind)) i := by
  have hparent := parent?_of_scopes hscopes
  constructor
  · unfold numbersBelow
    congr 1
    refine List.filter_congr fun e _ => ?_
    rw [hparent]
    split
    · simp_all
    · rename_i hcatches
      have hne : (s.parent? e.kind).map (·.cell) ≠ some s.cells.size :=
        map_cell_ne hs.parent?_lt (Nat.le_refl _)
      simp_all
  · intro i hi
    unfold numbersBelow
    rw [List.filter_filter]
    congr 1
    refine List.filter_congr fun e _ => ?_
    rw [hparent]
    split
    · have : s.cells.size ≠ i := by omega
      simp_all
    · simp_all

/-- What is caught by a scope hangs below its node, behind the leaves. -/
theorem Grown.hangs_opened (h : Grown opened closed entries) (hs : s.Sound)
    (hscopes : opened.scopes = ⟨s.cells.size, kind⟩ :: s.scopes)
    (hcells : opened.cells = attach (lay s.cells label leaves) (s.parent? kind) s.cells.size) :
    Hangs closed.cells s.cells.size
      (.ofScope label leaves (Block.caught kind (entries.map Entry.hung))) := by
  have hsize : opened.cells.size = s.cells.size + 1 + leaves.length := by simp [hcells]
  have hnode : closed.cells[s.cells.size]? = some (Cell.linkAll
      ⟨label, (leafLinks (s.cells.size + 1) leaves.length).toArray⟩
      ((entries.filter (kind.catches ·.kind)).map (·.number))) := by
    rw [h.old _ (by omega), (hs.numbersBelow_opened hscopes).1, hcells,
      getElem?_attach_lay_size label leaves hs.parent?_lt]
    rfl
  have hleaves : ∀ i l, leaves[i]? = some l →
      closed.cells[s.cells.size + 1 + i]? = some (.leaf l) := by
    intro i l hl
    have hi : i < leaves.length := (List.getElem?_eq_some_iff.1 hl).1
    -- a leaf is not an open scope, so nothing is linked below it
    have hbelow : opened.numbersBelow entries (s.cells.size + 1 + i) = [] := by
      have hnone : ∀ e ∈ entries,
          ¬ (opened.parent? e.kind).map (·.cell) = some (s.cells.size + 1 + i) := by
        intro e _
        rw [parent?_of_scopes hscopes]
        split
        · simp only [Option.map_some, Option.some.injEq]
          omega
        · exact map_cell_ne hs.parent?_lt (by omega)
      simpa [numbersBelow] using hnone
    rw [h.old _ (by omega), hbelow, hcells, getElem?_attach_lay_leaf label leaves hs.parent?_lt, hl]
    simp
  refine ⟨_, hnode, ?_⟩
  rw [caught_map_hung, Array.toList_append, List.map_append, List.map_map]
  refine HangAll.append (hangAll_leafLinks hleaves) ?_
  simp only [List.map_map]
  exact hangAll_map fun e he => (h.hangs e (List.mem_of_mem_filter he)).2

/-- **One scope**: its tree is laid down behind the old nodes, with what it catches, and the rest of
what comes out of it hangs below the scopes around it. -/
theorem Grown.scope (h : Grown opened closed entries) (hs : s.Sound)
    (hscopes : opened.scopes = ⟨s.cells.size, kind⟩ :: s.scopes)
    (hcells : opened.cells = attach (lay s.cells label leaves) (s.parent? kind) s.cells.size)
    {after : Assembly} (hafter : after.cells = closed.cells) (houter : after.scopes = s.scopes)
    (hsound : after.violation = none) :
    Grown s after (⟨kind, s.cells.size, .ofScope label leaves
      (Block.caught kind (entries.map Entry.hung))⟩ :: entries.filter (!kind.catches ·.kind)) := by
  have hsize : opened.cells.size = s.cells.size + 1 + leaves.length := by simp [hcells]
  have hle := h.size_le
  refine ⟨houter, hsound, by rw [hafter]; omega, ?_, ?_⟩
  · intro i hi
    rw [hafter, h.old i (by omega), (hs.numbersBelow_opened hscopes).2 i hi, hcells,
      getElem?_attach_lay_of_lt label leaves hi]
    by_cases hparent : (s.parent? kind).map (·.cell) = some i
    · rw [if_pos hparent, numbersBelow_cons, if_pos hparent, Option.map_map]
      congr 1
      funext c
      simp [Cell.link_eq_linkAll, Cell.linkAll_linkAll]
    · rw [if_neg hparent, numbersBelow_cons, if_neg hparent]
  · intro e he
    rw [hafter]
    rcases List.mem_cons.1 he with rfl | he
    · exact ⟨Nat.le_refl _, h.hangs_opened hs hscopes hcells⟩
    · obtain ⟨hnumber, htree⟩ := h.hangs e (List.mem_of_mem_filter he)
      exact ⟨by omega, htree⟩

end Scope

/-! ### A whole stream -/

theorem step_closing {s : Assembly} {scope : Scope} {outer : List Scope} {e : Event}
    (hv : s.violation = none) (hscopes : s.scopes = scope :: outer) (hroot : scope.kind ≠ .root)
    (he : e.bracket = .closing scope.kind) :
    s.step e = { s with scopes := outer, events := s.events + 1 } := by
  rw [step_of_sound hv, apply_closing he]
  simp [Assembly.exit, hscopes, hroot]

/-- The events of a scope, when those of the scopes inside of it do what they should. -/
theorem exists_grown_scope {s : Assembly} (hs : s.Sound) (hv : s.violation = none)
    {enter leave : Event} {kind : ScopeKind} {label : String} {leaves : List String}
    {inside : List Block}
    (henter : ∀ s : Assembly, s.apply enter = s.openScope kind label leaves (s.parent? kind))
    (hleave : leave.bracket = .closing kind) (hkind : kind ≠ .root)
    (ih : ∀ {s : Assembly}, s.Sound → s.violation = none →
      ∃ entries, Grown s (s.run (Block.eventsList inside)) entries ∧
        Block.hungList inside = entries.map Entry.hung) :
    ∃ entries, Grown s (s.run (enter :: (Block.eventsList inside ++ [leave]))) entries ∧
      (kind, Tree.ofScope label leaves (Block.caught kind (Block.hungList inside))) ::
        Block.passed kind (Block.hungList inside) = entries.map Entry.hung := by
  have hopened : s.step enter = { s with events := s.events + 1 }.openScope kind label leaves
      (s.parent? kind) := by
    rw [step_of_sound hv, henter]
    rfl
  have hscopes : (s.step enter).scopes = ⟨s.cells.size, kind⟩ :: s.scopes := by
    rw [hopened]
    rfl
  have hcells : (s.step enter).cells =
      attach (lay s.cells label leaves) (s.parent? kind) s.cells.size := by
    rw [hopened]
    rfl
  have hsound : (s.step enter).violation = none := by
    rw [hopened]
    exact hv
  obtain ⟨entries, hgrown, hhung⟩ := ih (hs.step enter) hsound
  -- the stream inside leaves the new scope open, so it can be left
  have hclosed := step_closing hgrown.sound (hgrown.scopes.trans hscopes) hkind hleave
  have hrun : s.run (enter :: (Block.eventsList inside ++ [leave])) =
      ((s.step enter).run (Block.eventsList inside)).step leave := by
    rw [run_cons, run_append]
    rfl
  rw [hrun, hclosed]
  refine ⟨_, hgrown.scope hs hscopes hcells rfl rfl hgrown.sound, ?_⟩
  rw [List.map_cons, hhung, passed_map_hung]
  rfl

mutual

theorem exists_grown_events {s : Assembly} (hs : s.Sound) (hv : s.violation = none) :
    ∀ b : Block, ∃ entries, Grown s (s.run b.events) entries ∧ b.hung = entries.map Entry.hung
  | .loop _ _ _ inside =>
    exists_grown_scope hs hv (fun _ => rfl) rfl (by decide) fun hs hv =>
      exists_grown_eventsList hs hv inside
  | .memory _ _ inside =>
    exists_grown_scope hs hv (fun _ => rfl) rfl (by decide) fun hs hv =>
      exists_grown_eventsList hs hv inside

theorem exists_grown_eventsList {s : Assembly} (hs : s.Sound) (hv : s.violation = none) :
    ∀ bs : List Block, ∃ entries, Grown s (s.run (Block.eventsList bs)) entries ∧
      Block.hungList bs = entries.map Entry.hung
  | [] => ⟨[], .refl hv, rfl⟩
  | b :: bs => by
    obtain ⟨entries, hgrown, hhung⟩ := exists_grown_events hs hv b
    obtain ⟨more, hgrown', hhung'⟩ := exists_grown_eventsList (hs.run b.events) hgrown.sound bs
    refine ⟨entries ++ more, ?_, by rw [Block.hungList, hhung, hhung', List.map_append]⟩
    rw [Block.eventsList, run_append]
    exact hgrown.trans hgrown' hs (hs.run b.events)

end

theorem events_exit (s : Assembly) (kind : ScopeKind) : (s.exit kind).events = s.events := by
  unfold Assembly.exit
  split
  · rfl
  · split
    · rfl
    · split <;> rfl

theorem events_step (s : Assembly) (e : Event) : (s.step e).events = s.events + 1 := by
  cases hv : s.violation with
  | some v => rw [step_of_violation hv]
  | none =>
    rw [step_of_sound hv]
    cases e with
    | enterLoop v n x => rfl
    | enterMemory buffer index => rfl
    | exitLoop => exact events_exit _ _
    | exitMemory => exact events_exit _ _

theorem events_run (s : Assembly) (es : List Event) :
    (s.run es).events = s.events + es.length := by
  induction es generalizing s with
  | nil => rfl
  | cons e es ih =>
    rw [run_cons, ih, events_step, List.length_cons]
    omega

theorem parent?_start (kind : ScopeKind) :
    start.parent? kind = if ScopeKind.root.catches kind then some ⟨0, .root⟩ else none := by
  cases kind <;> rfl

/-- What comes out of a stream of scopes hangs below the root, as far as the root catches it. -/
theorem Grown.hangs_root {s : Assembly} {entries : List Entry} (h : Grown start s entries) :
    Hangs s.cells 0
      (.ofScope Tree.rootLabel [] (Block.caught .root (entries.map Entry.hung))) := by
  have hbelow : start.numbersBelow entries 0 =
      (entries.filter (ScopeKind.root.catches ·.kind)).map (·.number) := by
    unfold numbersBelow
    congr 1
    refine List.filter_congr fun e _ => ?_
    rw [parent?_start]
    split <;> simp_all
  have hcell : s.cells[0]? = some ((Cell.leaf Tree.rootLabel).linkAll
      ((entries.filter (ScopeKind.root.catches ·.kind)).map (·.number))) := by
    rw [h.old 0 (by decide), hbelow]
    rfl
  refine ⟨_, hcell, ?_⟩
  rw [caught_map_hung]
  simp only [Cell.leaf, List.map_nil, List.nil_append, List.map_map, Array.toList_append]
  exact hangAll_map fun e he => (h.hangs e (List.mem_of_mem_filter he)).2

/-- **A stream of scopes assembles to the tree of its scopes.** -/
theorem ofEvents_eventsList (bs : List Block) :
    ofEvents (Block.eventsList bs) = .ok (Block.graph bs) := by
  obtain ⟨entries, hgrown, hhung⟩ := exists_grown_eventsList sound_start rfl bs
  have hroot := hgrown.hangs_root
  rw [← hhung] at hroot
  have hsound := sound_run (Block.eventsList bs)
  have hread := (((Readout.exact_ofSlot hsound.forest hsound.size_pos).hangs _).1 hroot).symm
  have hevents : (start.run (Block.eventsList bs)).events = (Block.eventsList bs).length := by
    rw [events_run]
    exact Nat.zero_add _
  rw [ofEvents_of_openKinds? (Event.nested_iff_openKinds?.1 (Block.nested_eventsList bs)),
    if_pos rfl, tree, hread, hevents, Block.graph]
  by_cases hbs : bs = []
  · subst hbs
    rfl
  · have hne : (Block.eventsList bs).length ≠ 0 := by
      rwa [ne_eq, List.length_eq_zero_iff, ← List.isEmpty_iff, Block.isEmpty_eventsList,
        List.isEmpty_iff]
    rw [if_neg hne, if_neg (by simpa using hbs)]

end Assembly

end AccessGraph
