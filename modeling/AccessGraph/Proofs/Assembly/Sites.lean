import AccessGraph.Proofs.Assembly.Placement
import AccessGraph.Proofs.Program.Variables
/-!
# The tree of a stream, event by event

Which scope a new scope hangs below can be told from the scopes that are open when it is entered. So
the tree of a stream is read off its events, without looking for the ends of scopes.

* `Site` : what an event that enters a scope says about the node of the scope.
* `Event.sitesFrom` : the sites of a stream, in the order in which the scopes are entered.
* `Site.grow` : the trees of the sites, each of which hangs below an earlier site or is lost.
* `Event.graph` : the tree of all sites that hang below the root in the end.
* `Block.growsTo_events` : the trees of the sites of some scopes are those that come out of them.
* `Assembly.ofEvents_nested` : **every well-nested stream assembles to its tree.**
-/

namespace AccessGraph

/-- What an event that enters a scope says about the node of the scope. -/
structure Site where
  /-- The label of the node. -/
  label : String
  /-- The labels of the leaves that come first below the node. -/
  leaves : List String
  /-- The number of the site whose node it hangs below, if there is one. -/
  parent : Option Nat

/-- The trees of sites that are numbered from `number` on, together with the numbers of the sites
they hang below. The node of a site takes in the trees of later sites that hang below it, in order;
what is left hangs below earlier sites or nowhere. -/
def Site.grow (number : Nat) : List Site → List (Option Nat × Tree)
  | [] => []
  | site :: sites =>
    let later := grow (number + 1) sites
    let inside := later.filter (·.1 = some number)
    (site.parent, .ofScope site.label site.leaves (inside.map (·.2))) ::
      later.filter (·.1 ≠ some number)

namespace Event

/-- The sites of a stream, numbered from `next` on in the order in which the scopes are entered. The
numbers and kinds of the scopes that are open are given, the innermost one first: a loop hangs below
the innermost scope of any kind, and an access below the innermost loop. -/
def sitesFrom (opened : List (Nat × ScopeKind)) (next : Nat) : List Event → List Site
  | [] => []
  | .enterLoop v _ _ :: es =>
    ⟨Tree.loopLabel, [v.name], opened.head?.map (·.1)⟩ ::
      sitesFrom ((next, .loop) :: opened) (next + 1) es
  | .enterMemory buffer index :: es =>
    ⟨buffer.name, (Var.sorted index.reads).map (·.name),
      (opened.find? (·.2 = .loop)).map (·.1)⟩ ::
        sitesFrom ((next, .memory) :: opened) (next + 1) es
  | .exitLoop :: es => sitesFrom opened.tail next es
  | .exitMemory :: es => sitesFrom opened.tail next es

/-- The tree of all sites of a stream that hang below the root, which is site zero, in the end. It
has no label if there are no events. -/
def graph (es : List Event) : Tree :=
  let trees := Site.grow 1 (sitesFrom [(0, .root)] 1 es)
  .ofScope (if es.isEmpty then "" else Tree.rootLabel) []
    ((trees.filter (·.1 = some 0)).map (·.2))

/-! ### Parents -/

/-- The number of the open scope that a new scope of some kind hangs below. -/
def parentOf (opened : List (Nat × ScopeKind)) (kind : ScopeKind) : Option Nat :=
  if kind = .loop then opened.head?.map (·.1) else (opened.find? (·.2 = .loop)).map (·.1)

theorem mem_of_parentOf {opened : List (Nat × ScopeKind)} {kind : ScopeKind} {i : Nat}
    (h : parentOf opened kind = some i) : i ∈ opened.map (·.1) := by
  unfold parentOf at h
  split at h
  · obtain ⟨o, ho, rfl⟩ := Option.map_eq_some_iff.1 h
    exact List.mem_map_of_mem (List.mem_of_mem_head? ho)
  · obtain ⟨o, ho, rfl⟩ := Option.map_eq_some_iff.1 h
    exact List.mem_map_of_mem (List.mem_of_find?_eq_some ho)

/-- The innermost scope is the parent of what it catches. -/
theorem parentOf_cons (number : Nat) (outer kind : ScopeKind) (opened : List (Nat × ScopeKind)) :
    parentOf ((number, outer) :: opened) kind =
      if outer.catches kind then some number else parentOf opened kind := by
  cases kind <;> cases outer <;> simp [parentOf, ScopeKind.catches]

/-- What is left hangs below scopes that were open in the beginning. -/
theorem mem_opened_of_mem_grow {opened : List (Nat × ScopeKind)} {next : Nat} {es : List Event}
    {x : Option Nat × Tree} {i : Nat} (hx : x ∈ Site.grow next (sitesFrom opened next es))
    (hi : x.1 = some i) : i ∈ opened.map (·.1) := by
  induction es generalizing opened next with
  | nil => simp [sitesFrom, Site.grow] at hx
  | cons e es ih =>
    -- an entered scope takes in what hangs below it, so only the others are left
    have hentered : ∀ {kind : ScopeKind},
        x ∈ (Site.grow (next + 1) (sitesFrom ((next, kind) :: opened) (next + 1) es)).filter
          (·.1 ≠ some next) → i ∈ opened.map (·.1) := by
      intro kind hx
      obtain ⟨hx, hne⟩ := List.mem_filter.1 hx
      have hne : i ≠ next := by
        rintro rfl
        simp [hi] at hne
      exact (List.mem_cons.1 (ih hx)).resolve_left hne
    have hleft : x ∈ Site.grow next (sitesFrom opened.tail next es) → i ∈ opened.map (·.1) := by
      intro hx
      have := ih hx
      rw [List.map_tail] at this
      exact List.mem_of_mem_tail this
    cases e with
    | enterLoop v n execution =>
      rcases List.mem_cons.1 hx with rfl | hx
      · exact @mem_of_parentOf opened .loop i hi
      · exact hentered hx
    | enterMemory buffer index =>
      rcases List.mem_cons.1 hx with rfl | hx
      · exact @mem_of_parentOf opened .memory i hi
      · exact hentered hx
    | exitLoop => exact hleft hx
    | exitMemory => exact hleft hx

end Event

namespace Block

open Event (parentOf sitesFrom)

/-! ### Scopes -/

/-- The trees that come out of scopes, with the numbers of the open scopes they hang below. -/
def placed (opened : List (Nat × ScopeKind)) (hung : List (ScopeKind × Tree)) :
    List (Option Nat × Tree) :=
  hung.map fun x => (parentOf opened x.1, x.2)

section Scope

variable {opened : List (Nat × ScopeKind)} {next : Nat} {kind : ScopeKind}

theorem lt_of_mem_cons (hopened : ∀ o ∈ opened, o.1 < next) :
    ∀ o ∈ (next, kind) :: opened, o.1 < next + 1 := by
  intro o ho
  rcases List.mem_cons.1 ho with rfl | ho
  · exact Nat.lt_succ_self next
  · exact Nat.lt_succ_of_lt (hopened o ho)

theorem parentOf_ne_of_lt (hopened : ∀ o ∈ opened, o.1 < next) (inner : ScopeKind) :
    parentOf opened inner ≠ some next := by
  intro h
  obtain ⟨o, ho, heq⟩ := List.mem_map.1 (Event.mem_of_parentOf h)
  have := hopened o ho
  omega

/-- Below the node of a scope hangs what it catches, and what passes hangs where it would hang
without the scope. -/
theorem filter_placed (hopened : ∀ o ∈ opened, o.1 < next) (hung : List (ScopeKind × Tree)) :
    ((placed ((next, kind) :: opened) hung).filter (·.1 = some next)).map (·.2) =
        caught kind hung ∧
      (placed ((next, kind) :: opened) hung).filter (·.1 ≠ some next) =
        placed opened (passed kind hung) := by
  induction hung with
  | nil => exact ⟨rfl, rfl⟩
  | cons x hung ih =>
    have hne := parentOf_ne_of_lt hopened x.1
    simp only [placed, caught, passed] at ih ⊢
    by_cases hcatches : kind.catches x.1 = true
    · simpa [Event.parentOf_cons, hcatches] using ih
    · simpa [Event.parentOf_cons, hcatches, hne] using ih

/-- Nothing of what comes later hangs below a scope that has been left. -/
theorem filter_grow_sitesFrom (hopened : ∀ o ∈ opened, o.1 < next) (later : Nat)
    (es : List Event) :
    (Site.grow later (sitesFrom opened later es)).filter (·.1 = some next) = [] ∧
      (Site.grow later (sitesFrom opened later es)).filter (·.1 ≠ some next) =
        Site.grow later (sitesFrom opened later es) := by
  have hnone : ∀ x ∈ Site.grow later (sitesFrom opened later es), x.1 ≠ some next := by
    intro x hx heq
    obtain ⟨o, ho, hnumber⟩ := List.mem_map.1 (Event.mem_opened_of_mem_grow hx heq)
    have := hopened o ho
    omega
  exact ⟨by simpa using hnone, by simpa using hnone⟩

end Scope

/-- The trees of a stream that begins with the events of some scopes are those that come out of the
scopes, and then those of the rest of the stream. -/
def GrowsTo (opened : List (Nat × ScopeKind)) (next : Nat) (es : List Event)
    (hung : List (ScopeKind × Tree)) : Prop :=
  ∀ rest, ∃ later, next ≤ later ∧
    Site.grow next (sitesFrom opened next (es ++ rest)) =
      placed opened hung ++ Site.grow later (sitesFrom opened later rest)

theorem growsTo_scope {opened : List (Nat × ScopeKind)} {next : Nat} {kind : ScopeKind}
    {label : String} {leaves : List String} {enter leave : Event} {inside : List Event}
    {hung : List (ScopeKind × Tree)} (hopened : ∀ o ∈ opened, o.1 < next)
    (henter : ∀ es, sitesFrom opened next (enter :: es) =
      ⟨label, leaves, parentOf opened kind⟩ :: sitesFrom ((next, kind) :: opened) (next + 1) es)
    (hleave : ∀ o later es, sitesFrom (o :: opened) later (leave :: es) = sitesFrom opened later es)
    (ih : GrowsTo ((next, kind) :: opened) (next + 1) inside hung) :
    GrowsTo opened next (enter :: (inside ++ [leave]))
      ((kind, .ofScope label leaves (caught kind hung)) :: passed kind hung) := by
  intro rest
  obtain ⟨later, hle, hinside⟩ := ih (leave :: rest)
  refine ⟨later, by omega, ?_⟩
  -- of what is inside, the scope takes in a part; of what comes after its end, nothing
  obtain ⟨hcaught, hpassed⟩ := @filter_placed opened next kind hopened hung
  obtain ⟨hnone, hall⟩ := filter_grow_sitesFrom hopened later rest
  have hes : enter :: (inside ++ [leave]) ++ rest = enter :: (inside ++ leave :: rest) := by simp
  rw [hes, henter, Site.grow, hinside, hleave]
  simp only [List.filter_append, List.map_append, hcaught, hpassed, hnone, hall]
  simp [placed]

mutual

theorem growsTo_events {opened : List (Nat × ScopeKind)} {next : Nat}
    (hopened : ∀ o ∈ opened, o.1 < next) : ∀ b : Block, GrowsTo opened next b.events b.hung
  | .loop _ _ _ inside =>
    growsTo_scope hopened (fun _ => rfl) (fun _ _ _ => rfl)
      (growsTo_eventsList (lt_of_mem_cons hopened) inside)
  | .memory _ index inside => by
    rw [events, hung, index.vars_eq]
    exact growsTo_scope hopened (fun _ => rfl) (fun _ _ _ => rfl)
      (growsTo_eventsList (lt_of_mem_cons hopened) inside)

theorem growsTo_eventsList {opened : List (Nat × ScopeKind)} {next : Nat}
    (hopened : ∀ o ∈ opened, o.1 < next) :
    ∀ bs : List Block, GrowsTo opened next (eventsList bs) (hungList bs)
  | [] => fun rest => ⟨next, Nat.le_refl _, rfl⟩
  | b :: bs => by
    intro rest
    obtain ⟨later, hle, hfirst⟩ := growsTo_events hopened b (eventsList bs ++ rest)
    obtain ⟨later', hle', hrest⟩ := growsTo_eventsList
      (fun o ho => Nat.lt_of_lt_of_le (hopened o ho) hle) bs rest
    refine ⟨later', Nat.le_trans hle hle', ?_⟩
    rw [eventsList, List.append_assoc, hfirst, hrest, hungList]
    simp [placed]

end

/-- **The tree of a stream of scopes** is the tree of the scopes. -/
theorem graph_eventsList (bs : List Block) : Event.graph (eventsList bs) = graph bs := by
  have hroot : ∀ o ∈ [(0, ScopeKind.root)], o.1 < 1 := by simp
  obtain ⟨later, -, hgrow⟩ := growsTo_eventsList hroot bs []
  have hcaught := (@filter_placed [] 0 .root (by simp) (hungList bs)).1
  rw [List.append_nil] at hgrow
  rw [Event.graph, graph, hgrow, isEmpty_eventsList]
  simp only [sitesFrom, Site.grow, List.append_nil, hcaught]

end Block

/-- **Every well-nested stream assembles to its tree.** -/
theorem Assembly.ofEvents_nested {es : List Event} (h : Event.Nested es) :
    Assembly.ofEvents es = .ok (Event.graph es) := by
  obtain ⟨bs, rfl⟩ := Event.nested_iff_exists_blocks.1 h
  rw [Assembly.ofEvents_eventsList, Block.graph_eventsList]

/-- An access outside of all loops with a loop inside, and then a loop with accesses inside of each
other, the outer one of which also has a loop inside. -/
def Event.crossing : List Event :=
  [.enterMemory (.named "A") (.int 0), .enterLoop (.named "k") 4 .serial, .exitLoop, .exitMemory,
    .enterLoop (.named "i") 8 .serial,
    .enterMemory (.named "B") (.binary .add (.named "j") (.binary .mul (.named "i") (.named "j"))),
    .enterMemory (.named "C") (.int 1), .exitMemory,
    .enterLoop (.named "t") 2 .serial, .exitLoop,
    .exitMemory, .exitLoop]

theorem Assembly.ofEvents_nested_crossing :
    Event.Nested Event.crossing ∧ Assembly.ofEvents Event.crossing = .ok
      (.ofScope "root" [] [.ofScope "for" ["i"]
        [.ofScope "B" ["i", "j"] [.ofScope "for" ["t"] []], .ofScope "C" [] []]]) := by
  have hnested : Event.Nested Event.crossing := Event.nested_iff_openKinds?.2 (by decide)
  refine ⟨hnested, (Assembly.ofEvents_nested hnested).trans (congrArg Except.ok ?_)⟩
  decide

end AccessGraph
