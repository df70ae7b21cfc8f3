import AccessGraph.Proofs.Assembly.Placement
/-!
# Accesses outside of all loops

The root takes in loops only, and an access lets none of them pass. So nothing comes out of an access
that lies in no loop, and what lies inside of it cannot be told from the tree.

* `Event.exists_outermost`, `Event.Closes.exists_outermost` : where the outermost open scope begins
  and ends.
* `Event.exists_access_around` : what stands around a place where no loop is open.
* `Block.atRoot` : the trees that scopes leave below the root.
* `Assembly.ofEvents_around` : an access between two well-nested streams leaves nothing.
* `Assembly.ofEvents_stray` : **an access outside of all loops leaves no trace**, wherever it is
  put in.
-/

namespace AccessGraph

namespace Event

/-! ### The outermost scope -/

/-- The outermost open scope is opened after a well-nested stream, and the other open scopes are
opened inside of it. -/
theorem exists_outermost {es : List Event} {kinds : List ScopeKind} {kind : ScopeKind}
    (h : openKinds? [] es = some (kinds ++ [kind])) :
    ∃ before enter inside, es = before ++ enter :: inside ∧ enter.bracket = .opening kind ∧
      Nested before ∧ openKinds? [] inside = some kinds := by
  induction kinds generalizing es with
  | nil =>
    obtain ⟨before, enter, inside, rfl, henter, hinside, hbefore⟩ := exists_innermost h
    exact ⟨before, enter, inside, rfl, henter, nested_iff_openKinds?.2 hbefore,
      hinside.openKinds? []⟩
  | cons innermost kinds ih =>
    obtain ⟨front, enter', inside', rfl, henter', hinside', hfront⟩ := exists_innermost h
    obtain ⟨before, enter, inside, rfl, henter, hbefore, hinside⟩ := ih hfront
    refine ⟨before, enter, inside ++ enter' :: inside', by simp, henter, hbefore, ?_⟩
    rw [openKinds?_append, hinside, Option.bind_some, openKinds?, follow?_opening henter',
      Option.bind_some, hinside'.openKinds?]

/-- The outermost scope is closed after all others, and before a well-nested stream. -/
theorem Closes.exists_outermost {es : List Event} {kinds : List ScopeKind} {kind : ScopeKind}
    (h : Closes (kinds ++ [kind]) es) :
    ∃ inside leave after, es = inside ++ leave :: after ∧ leave.bracket = .closing kind ∧
      openKinds? kinds inside = some [] ∧ Nested after := by
  induction kinds generalizing es with
  | nil =>
    obtain ⟨inside, leave, after, rfl, hinside, hleave, hafter⟩ := h
    exact ⟨inside, leave, after, rfl, hleave, hinside.openKinds? [], hafter⟩
  | cons innermost kinds ih =>
    obtain ⟨inside', leave', rest, rfl, hinside', hleave', hrest⟩ := h
    obtain ⟨inside, leave, after, rfl, hleave, hinside, hafter⟩ := ih hrest
    refine ⟨inside' ++ leave' :: inside, leave, after, by simp, hleave, ?_, hafter⟩
    rw [openKinds?_append, hinside'.openKinds?, Option.bind_some, openKinds?,
      follow?_closing hleave', leave?_self, Option.bind_some, hinside]

theorem exists_eq_enterMemory {e : Event} (h : e.bracket = .opening .memory) :
    ∃ buffer index, e = .enterMemory buffer index := by
  cases e <;> simp_all [bracket]

theorem eq_exitMemory {e : Event} (h : e.bracket = .closing .memory) : e = .exitMemory := by
  cases e <;> simp_all [bracket]

/-- A place in a well-nested stream where no loop is open lies between two well-nested streams, or
inside of an access that does. Whatever is well-nested can be put in there. -/
theorem exists_access_around {p s : List Event} {kinds : List ScopeKind} (hnested : Nested (p ++ s))
    (hopen : openKinds? [] p = some kinds) (hloop : .loop ∉ kinds) :
    (Nested p ∧ Nested s) ∨
      ∃ front back buffer index before after, Nested front ∧ Nested back ∧
        p = front ++ .enterMemory buffer index :: before ∧ s = after ++ .exitMemory :: back ∧
        ∀ block, Nested block → Nested (before ++ block ++ after) := by
  have hclosed : openKinds? kinds s = some [] := by
    have hall := nested_iff_openKinds?.1 hnested
    rwa [openKinds?_append, hopen, Option.bind_some] at hall
  obtain rfl | ⟨inner, kind, rfl⟩ := kinds.eq_nil_or_concat'
  · exact .inl ⟨nested_iff_openKinds?.2 hopen, nested_iff_openKinds?.2 hclosed⟩
  -- the outermost open scope is an access
  have hroot : .root ∉ inner ++ [kind] := root_not_mem_of_openKinds? (by simp) hopen
  obtain rfl : kind = .memory := by
    cases kind <;> simp_all
  obtain ⟨front, enter, before, rfl, henter, hfront, hbefore⟩ := exists_outermost hopen
  obtain ⟨after, leave, back, rfl, hleave, hafter, hback⟩ :=
    (closes_of_openKinds? hclosed).exists_outermost
  obtain ⟨buffer, index, rfl⟩ := exists_eq_enterMemory henter
  obtain rfl := eq_exitMemory hleave
  refine .inr ⟨front, back, buffer, index, before, after, hfront, hback, rfl, rfl,
    fun block hblock => nested_iff_openKinds?.2 ?_⟩
  rw [openKinds?_append, openKinds?_append, hbefore, Option.bind_some, hblock.openKinds?,
    Option.bind_some, hafter]

/-- An access with some events inside. -/
def access (buffer : Var) (index : Expr) (inside : List Event) : List Event :=
  .enterMemory buffer index :: inside ++ [.exitMemory]

theorem Nested.access {inside : List Event} (h : Nested inside) (buffer : Var) (index : Expr) :
    Nested (Event.access buffer index inside) :=
  h.around rfl rfl

end Event

/-! ### Below the root -/

namespace Block

/-- The trees that scopes leave below the root. -/
def atRoot (bs : List Block) : List Tree := caught .root (hungList bs)

theorem atRoot_append (bs cs : List Block) : atRoot (bs ++ cs) = atRoot bs ++ atRoot cs := by
  rw [atRoot, hungList_append, caught_append]
  rfl

/-- An access takes in the loops inside of it, and the root takes in nothing else. -/
theorem atRoot_memory (buffer : Var) (index : Expr) (inside : List Block) :
    atRoot [.memory buffer index inside] = [] := by
  simp [atRoot, hungList, hung, caught, passed, ScopeKind.catches]

end Block

namespace Assembly

open Event (Nested)

theorem ofEvents_blocks (bs : List Block) :
    ofEvents (Block.eventsList bs) = .ok (.ofScope (if (Block.eventsList bs).isEmpty then "" else
      Tree.rootLabel) [] (Block.atRoot bs)) := by
  rw [ofEvents_eventsList, Block.isEmpty_eventsList]
  rfl

/-- An access between two well-nested streams leaves nothing below the root, whatever it holds. -/
theorem ofEvents_around {front back : List Event} (hfront : Nested front) (hback : Nested back) :
    ∃ ts,
      ofEvents (front ++ back) =
        .ok (.ofScope (if (front ++ back).isEmpty then "" else Tree.rootLabel) [] ts) ∧
      ∀ {inside : List Event}, Nested inside → ∀ buffer index,
        ofEvents (front ++ Event.access buffer index inside ++ back) =
          .ok (.ofScope Tree.rootLabel [] ts) := by
  obtain ⟨bs, rfl⟩ := Event.nested_iff_exists_blocks.1 hfront
  obtain ⟨cs, rfl⟩ := Event.nested_iff_exists_blocks.1 hback
  refine ⟨Block.atRoot (bs ++ cs), ?_, fun hinside buffer index => ?_⟩
  · rw [← Block.eventsList_append, ofEvents_blocks]
  · obtain ⟨ds, rfl⟩ := Event.nested_iff_exists_blocks.1 hinside
    have hevents : Block.eventsList bs ++ Event.access buffer index (Block.eventsList ds) ++
        Block.eventsList cs = Block.eventsList (bs ++ [.memory buffer index ds] ++ cs) := by
      simp [Block.eventsList_append, Block.eventsList, Block.events, Event.access]
    have hroot : Block.atRoot (bs ++ [.memory buffer index ds] ++ cs) =
        Block.atRoot (bs ++ cs) := by
      rw [Block.atRoot_append, Block.atRoot_append, Block.atRoot_append, Block.atRoot_memory,
        List.append_nil]
    rw [hevents, ofEvents_blocks, hroot, ← hevents]
    simp [Event.access]

/-- **An access outside of all loops leaves no trace**: put in at a place where no loop is open, it
leaves the children of the root as they are, whatever it holds. -/
theorem ofEvents_stray {p s inside : List Event} {kinds : List ScopeKind}
    (hnested : Nested (p ++ s)) (hopen : Event.openKinds? [] p = some kinds)
    (hloop : .loop ∉ kinds) (hinside : Nested inside) (buffer : Var) (index : Expr) :
    ∃ children,
      ofEvents (p ++ s) =
        .ok (.node (if (p ++ s).isEmpty then "" else Tree.rootLabel) children) ∧
      ofEvents (p ++ (.enterMemory buffer index :: inside ++ [.exitMemory]) ++ s) =
        .ok (.node Tree.rootLabel children) := by
  obtain ⟨hp, hs⟩ |
    ⟨front, back, outer, outerIndex, before, after, hfront, hback, rfl, rfl, hinner⟩ :=
    Event.exists_access_around hnested hopen hloop
  · obtain ⟨ts, hwithout, hwith⟩ := ofEvents_around hp hs
    exact ⟨ts.map (.structural, ·), hwithout, hwith hinside buffer index⟩
  · -- the access around the place leaves nothing, with or without what is put in
    obtain ⟨ts, -, hwith⟩ := ofEvents_around hfront hback
    have hwithout := hwith (hinner [] .nil) outer outerIndex
    have hput := hwith (hinner _ (hinside.access buffer index)) outer outerIndex
    refine ⟨ts.map (.structural, ·), ?_, ?_⟩
    · simpa [Event.access, Tree.ofScope] using hwithout
    · simpa [Event.access, Tree.ofScope] using hput

end Assembly

/-- A loop, and an access that is still open. -/
def Event.halfway : List Event :=
  [.enterLoop (.named "i") 4 .serial, .enterMemory (.named "A") (.named "i"), .exitMemory,
    .exitLoop, .enterMemory (.named "B") (.named "j")]

/-- A loop inside of that access, and a loop behind it. -/
def Event.halfwayRest : List Event :=
  [.enterLoop (.named "t") 2 .serial, .exitLoop, .exitMemory,
    .enterLoop (.named "k") 8 .serial, .exitLoop]

/-- A loop with an access inside, and an access to a buffer that goes by the label of loops. -/
def Event.detour : List Event :=
  [.enterLoop (.named "u") 3 .serial, .enterMemory (.named "C") (.named "u"), .exitMemory,
    .exitLoop, .enterMemory (.named "for") (.int 0), .exitMemory]

theorem Assembly.ofEvents_stray_detour :
    Event.Nested (Event.halfway ++ Event.halfwayRest) ∧
      Event.openKinds? [] Event.halfway = some [.memory] ∧
      ScopeKind.loop ∉ [ScopeKind.memory] ∧ Event.Nested Event.detour ∧
      ∃ children,
        ofEvents (Event.halfway ++ Event.halfwayRest) = .ok (.node "root" children) ∧
        ofEvents (Event.halfway ++ (.enterMemory (.named "D") (.named "n") :: Event.detour ++
          [.exitMemory]) ++ Event.halfwayRest) = .ok (.node "root" children) := by
  have hnested : Event.Nested (Event.halfway ++ Event.halfwayRest) :=
    Event.nested_iff_openKinds?.2 (by decide)
  have hopen : Event.openKinds? [] Event.halfway = some [.memory] := by decide
  have hloop : ScopeKind.loop ∉ [ScopeKind.memory] := by decide
  have hinside : Event.Nested Event.detour := Event.nested_iff_openKinds?.2 (by decide)
  exact ⟨hnested, hopen, hloop, hinside,
    Assembly.ofEvents_stray hnested hopen hloop hinside (.named "D") (.named "n")⟩

end AccessGraph
