import AccessGraph.Proofs.Event.Nesting
/-!
# Scopes inside of scopes

A well-nested stream is a list of scopes, each of which holds a list of scopes.

* `Block` : a scope and the scopes inside of it.
* `Block.events`, `Block.eventsList` : their events.
* `Event.nested_iff_exists_blocks` : **the streams of scopes are the well-nested ones.**
* `ScopeKind.catches` : which scopes hang below which.
* `Block.hung` : the trees that come out of a scope, looking for something to hang below.
* `Block.graph` : the tree of all scopes that hang below the root in the end.
-/

namespace AccessGraph

/-- A scope and the scopes inside of it. -/
inductive Block where
  | loop (var : Var) (tripCount : Int64) (execution : Execution) (inside : List Block)
  | memory (buffer : Var) (index : Expr) (inside : List Block)

namespace Block

mutual

/-- The events of a scope. -/
def events : Block → List Event
  | .loop v n x inside => .enterLoop v n x :: (eventsList inside ++ [.exitLoop])
  | .memory buffer index inside => .enterMemory buffer index :: (eventsList inside ++ [.exitMemory])

/-- The events of several scopes. -/
def eventsList : List Block → List Event
  | [] => []
  | b :: bs => events b ++ eventsList bs

end

theorem eventsList_append (bs cs : List Block) :
    eventsList (bs ++ cs) = eventsList bs ++ eventsList cs := by
  induction bs with
  | nil => rfl
  | cons b bs ih => simp [eventsList, ih]

/-- There are no events only where there are no scopes. -/
theorem isEmpty_eventsList (bs : List Block) : (eventsList bs).isEmpty = bs.isEmpty := by
  cases bs with
  | nil => rfl
  | cons b bs => cases b <;> rfl

mutual

theorem nested_events : ∀ b : Block, Event.Nested b.events
  | .loop _ _ _ inside => .around rfl rfl (nested_eventsList inside)
  | .memory _ _ inside => .around rfl rfl (nested_eventsList inside)

theorem nested_eventsList : ∀ bs : List Block, Event.Nested (eventsList bs)
  | [] => .nil
  | b :: bs => (nested_events b).append (nested_eventsList bs)

end

end Block

/-- An opening and a closing of one kind are those of a scope. -/
theorem Event.exists_block {enter leave : Event} {kind : ScopeKind}
    (henter : enter.bracket = .opening kind) (hleave : leave.bracket = .closing kind)
    (inside : List Block) :
    ∃ b : Block, b.events = enter :: (Block.eventsList inside ++ [leave]) := by
  cases enter with
  | enterLoop v n x =>
    obtain rfl : .loop = kind := by simpa [Event.bracket] using henter
    refine ⟨.loop v n x inside, ?_⟩
    cases leave <;> simp_all [Event.bracket, Block.events]
  | enterMemory buffer index =>
    obtain rfl : .memory = kind := by simpa [Event.bracket] using henter
    refine ⟨.memory buffer index inside, ?_⟩
    cases leave <;> simp_all [Event.bracket, Block.events]
  | exitLoop => simp [Event.bracket] at henter
  | exitMemory => simp [Event.bracket] at henter

/-- **The streams of scopes are the well-nested ones.** -/
theorem Event.nested_iff_exists_blocks {es : List Event} :
    Event.Nested es ↔ ∃ bs, es = Block.eventsList bs := by
  constructor
  · intro h
    induction h with
    | nil => exact ⟨[], rfl⟩
    | scope henter hleave _ _ ihInside ihRest =>
      obtain ⟨inside, rfl⟩ := ihInside
      obtain ⟨rest, rfl⟩ := ihRest
      obtain ⟨b, hb⟩ := Event.exists_block henter hleave inside
      exact ⟨b :: rest, by simp [Block.eventsList, hb]⟩
  · rintro ⟨bs, rfl⟩
    exact Block.nested_eventsList bs

/-- A scope of kind `outer` takes in the scopes of kind `inner` that come out of the scopes inside of
it: a loop takes in all of them, whatever else only the loops. -/
def ScopeKind.catches (outer inner : ScopeKind) : Bool := outer = .loop || inner = .loop

/-- The tree of a scope: first its leaves, and then what hangs below it. -/
def Tree.ofScope (label : String) (leaves : List String) (hanging : List Tree) : Tree :=
  .node label ((leaves.map Tree.leaf ++ hanging).map (.structural, ·))

namespace Block

/-- The trees that a scope of some kind takes in. -/
def caught (kind : ScopeKind) (hung : List (ScopeKind × Tree)) : List Tree :=
  (hung.filter (kind.catches ·.1)).map (·.2)

/-- The trees that a scope of some kind lets pass. -/
def passed (kind : ScopeKind) (hung : List (ScopeKind × Tree)) : List (ScopeKind × Tree) :=
  hung.filter (!kind.catches ·.1)

theorem caught_append (kind : ScopeKind) (hung more : List (ScopeKind × Tree)) :
    caught kind (hung ++ more) = caught kind hung ++ caught kind more := by
  simp [caught]

mutual

/-- The trees that come out of a scope, with the kinds of their scopes and in the order in which
these are entered: first its own, and then those it lets pass. -/
def hung : Block → List (ScopeKind × Tree)
  | .loop v _ _ inside =>
    (.loop, .ofScope Tree.loopLabel [v.name] (caught .loop (hungList inside))) ::
      passed .loop (hungList inside)
  | .memory buffer index inside =>
    (.memory, .ofScope buffer.name (index.vars.map (·.name)) (caught .memory (hungList inside))) ::
      passed .memory (hungList inside)

/-- The trees that come out of several scopes. -/
def hungList : List Block → List (ScopeKind × Tree)
  | [] => []
  | b :: bs => hung b ++ hungList bs

end

theorem hungList_append (bs cs : List Block) :
    hungList (bs ++ cs) = hungList bs ++ hungList cs := by
  induction bs with
  | nil => rfl
  | cons b bs ih => simp [hungList, ih]

/-- The tree of all scopes that hang below the root in the end. It has no label if there are no
scopes. -/
def graph (bs : List Block) : Tree :=
  .ofScope (if bs.isEmpty then "" else Tree.rootLabel) [] (caught .root (hungList bs))

end Block

end AccessGraph
