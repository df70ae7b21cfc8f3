import AccessGraph.Extraction
import AccessGraph.Proofs.Assembly.Placement
import AccessGraph.Proofs.Program.Variables
/-!
# The graph of a program

The graph of a program is described by recursion on the text of the program, without events.

* `Expr.accesses` : the nodes of an expression.
* `Stmt.opensLoop` : which attributes open a loop scope.
* `Stmt.nodes` : the nodes of a statement, inside or outside of loops.
* `Stmt.graph` : the graph of a program.
* `Stmt.blocks` : the scopes of a program.
* `Stmt.caught_hungList_blocks` : the trees that come out of the scopes of a statement are its nodes.
* `Stmt.tree?_eq` : **the tree of a program is its graph.**
-/

namespace AccessGraph

/-- The tree of an access: its buffer, and below it the variables that its index reads. -/
def Tree.access (buffer : Var) (index : Expr) : Tree :=
  .ofScope buffer.name ((Var.sorted index.reads).map (·.name)) []

namespace Expr

/-! ### Nodes -/

mutual

/-- The nodes of an expression. That of a load comes before those of its operands. -/
def accesses : Expr → List Tree
  | .var _ => []
  | .int _ => []
  | .float _ => []
  | .binary _ a b => accesses a ++ accesses b
  | .select c t f => accesses c ++ accesses t ++ accesses f
  | .load buffer index predicate =>
    .access buffer index :: (accesses index ++ accessesOption predicate)
  | .call _ args => accessesList args

/-- The nodes of an expression that may be absent. -/
def accessesOption : Option Expr → List Tree
  | none => []
  | some e => accesses e

/-- The nodes of several expressions. -/
def accessesList : List Expr → List Tree
  | [] => []
  | e :: es => accesses e ++ accessesList es

end

theorem accessesOption_eq_accessesList (e : Option Expr) :
    accessesOption e = accessesList e.toList := by
  cases e with
  | none => rfl
  | some e => exact (List.append_nil _).symm

end Expr

namespace Stmt

/-- An attribute of this key binds threads to a variable. -/
def bindsThreads (key : String) : Bool := key = "thread_extent" || key = "virtual_thread"

/-- An attribute opens a loop scope if it has a variable and a key that binds threads to it. -/
def opensLoop (key : String) (iterVar : Option Var) : Bool := bindsThreads key && iterVar.isSome

/-- Accesses have nodes only inside of loops. -/
def kept (inLoop : Bool) (accesses : List Tree) : List Tree := if inLoop then accesses else []

/-- The node of a loop: first its variable, then the accesses of its bounds and the nodes of its
body. -/
def loopNode (v : Var) (nodes : List Tree) : Tree := .ofScope Tree.loopLabel [v.name] nodes

mutual

/-- The nodes of a statement that stands inside or outside of loops. -/
def nodes (inLoop : Bool) : Stmt → List Tree
  | .loop v min extent _ body =>
    [loopNode v (min.accesses ++ extent.accesses ++ nodes true body)]
  | .attribute key iterVar _ value body =>
    match iterVar, bindsThreads key with
    | some v, true => [loopNode v (value.accesses ++ nodes true body)]
    | _, _ => kept inLoop value.accesses ++ nodes inLoop body
  | .store buffer value index predicate =>
    kept inLoop (.access buffer index ::
      (value.accesses ++ index.accesses ++ Expr.accessesOption predicate))
  | .binding _ value body => kept inLoop value.accesses ++ nodes inLoop body
  | .conditional condition thenCase elseCase =>
    kept inLoop condition.accesses ++ nodes inLoop thenCase ++ nodesOption inLoop elseCase
  | .sequence stmts => nodesList inLoop stmts
  | .evaluate value => kept inLoop value.accesses

/-- The nodes of a statement that may be absent. -/
def nodesOption (inLoop : Bool) : Option Stmt → List Tree
  | none => []
  | some s => nodes inLoop s

/-- The nodes of several statements. -/
def nodesList (inLoop : Bool) : List Stmt → List Tree
  | [] => []
  | s :: ss => nodes inLoop s ++ nodesList inLoop ss

end

@[simp] theorem kept_true (accesses : List Tree) : kept true accesses = accesses := rfl

@[simp] theorem kept_append (inLoop : Bool) (ts us : List Tree) :
    kept inLoop (ts ++ us) = kept inLoop ts ++ kept inLoop us := by
  cases inLoop <;> rfl

theorem nodesOption_eq_nodesList (inLoop : Bool) (s : Option Stmt) :
    nodesOption inLoop s = nodesList inLoop s.toList := by
  cases s with
  | none => rfl
  | some s => exact (List.append_nil _).symm

theorem nodesList_append (inLoop : Bool) (ss ts : List Stmt) :
    nodesList inLoop (ss ++ ts) = nodesList inLoop ss ++ nodesList inLoop ts := by
  induction ss with
  | nil => rfl
  | cons s ss ih => rw [List.cons_append, nodesList, ih, nodesList, List.append_assoc]

theorem nodes_attribute_thread {key : String} (hkey : bindsThreads key = true) (inLoop : Bool)
    (v : Var) (tag : String) (value : Expr) (body : Stmt) :
    nodes inLoop (.attribute key (some v) tag value body) =
      [loopNode v (value.accesses ++ nodes true body)] := by
  simp only [nodes, hkey]

/-- An attribute that opens no scope leaves the nodes of its value and its body where they are. -/
theorem nodes_attribute_plain {key : String} {iterVar : Option Var}
    (hplain : opensLoop key iterVar = false) (inLoop : Bool) (tag : String) (value : Expr)
    (body : Stmt) :
    nodes inLoop (.attribute key iterVar tag value body) =
      kept inLoop value.accesses ++ nodes inLoop body := by
  cases iterVar with
  | none => rfl
  | some v =>
    have hkey : bindsThreads key = false := by simpa [opensLoop] using hplain
    simp only [nodes, hkey]

/-- The graph of a program. It has no label if the program has neither loops nor accesses. -/
def graph (s : Stmt) : Tree :=
  .ofScope (if (s.nodes true).isEmpty then "" else Tree.rootLabel) [] (s.nodes false)

end Stmt

/-! ### Scopes -/

namespace Expr

mutual

/-- The scopes of an expression. -/
def blocks : Expr → List Block
  | .var _ => []
  | .int _ => []
  | .float _ => []
  | .binary _ a b => blocks a ++ blocks b
  | .select c t f => blocks c ++ blocks t ++ blocks f
  | .load buffer index predicate => [.memory buffer index (blocks index ++ blocksOption predicate)]
  | .call _ args => blocksList args

/-- The scopes of an expression that may be absent. -/
def blocksOption : Option Expr → List Block
  | none => []
  | some e => blocks e

/-- The scopes of several expressions. -/
def blocksList : List Expr → List Block
  | [] => []
  | e :: es => blocks e ++ blocksList es

end

mutual

theorem eventsList_blocks : ∀ e : Expr, Block.eventsList e.blocks = e.events
  | .var _ => rfl
  | .int _ => rfl
  | .float _ => rfl
  | .binary _ a b => by
    rw [blocks, Block.eventsList_append, eventsList_blocks a, eventsList_blocks b, events]
  | .select c t f => by
    rw [blocks, Block.eventsList_append, Block.eventsList_append, eventsList_blocks c,
      eventsList_blocks t, eventsList_blocks f, events]
  | .load buffer index predicate => by
    rw [blocks, Block.eventsList, Block.events, Block.eventsList_append, eventsList_blocks index,
      eventsList_blocksOption predicate, events, Block.eventsList, List.append_nil]
  | .call _ args => by
    rw [blocks, eventsList_blocksList args, events]

theorem eventsList_blocksOption :
    ∀ e : Option Expr, Block.eventsList (blocksOption e) = eventsOption e
  | none => rfl
  | some e => by
    rw [blocksOption, eventsList_blocks e, eventsOption]

theorem eventsList_blocksList :
    ∀ es : List Expr, Block.eventsList (blocksList es) = eventsList es
  | [] => rfl
  | e :: es => by
    rw [blocksList, Block.eventsList_append, eventsList_blocks e, eventsList_blocksList es,
      eventsList]

end

end Expr

namespace Stmt

mutual

/-- The scopes of a statement. -/
def blocks : Stmt → List Block
  | .loop v min extent kind body =>
    [.loop v extent.tripCount (.ofLoopKind kind) (min.blocks ++ extent.blocks ++ blocks body)]
  | .attribute key iterVar tag value body =>
    match iterVar, threadExecution? key tag with
    | some v, some execution => [.loop v value.tripCount execution (value.blocks ++ blocks body)]
    | _, _ => value.blocks ++ blocks body
  | .store buffer value index predicate =>
    [.memory buffer index (value.blocks ++ index.blocks ++ Expr.blocksOption predicate)]
  | .binding _ value body => value.blocks ++ blocks body
  | .conditional condition thenCase elseCase =>
    condition.blocks ++ blocks thenCase ++ blocksOption elseCase
  | .sequence stmts => blocksList stmts
  | .evaluate value => value.blocks

/-- The scopes of a statement that may be absent. -/
def blocksOption : Option Stmt → List Block
  | none => []
  | some s => blocks s

/-- The scopes of several statements. -/
def blocksList : List Stmt → List Block
  | [] => []
  | s :: ss => blocks s ++ blocksList ss

end

mutual

theorem eventsList_blocks : ∀ s : Stmt, Block.eventsList s.blocks = s.events
  | .loop v min extent kind body => by
    simp [blocks, events, Block.eventsList, Block.events, Block.eventsList_append,
      Expr.eventsList_blocks, eventsList_blocks body]
  | .attribute key iterVar tag value body => by
    have hplain : Block.eventsList (value.blocks ++ blocks body) = value.events ++ events body := by
      rw [Block.eventsList_append, Expr.eventsList_blocks, eventsList_blocks body]
    cases iterVar with
    | none => exact hplain
    | some v =>
      cases hbinds : threadExecution? key tag with
      | none => simpa only [blocks, events, hbinds] using hplain
      | some execution =>
        simp only [blocks, events, hbinds, Block.eventsList, Block.events, hplain, List.append_nil]
  | .store buffer value index predicate => by
    simp [blocks, events, Block.eventsList, Block.events, Block.eventsList_append,
      Expr.eventsList_blocks, Expr.eventsList_blocksOption]
  | .binding _ value body => by
    rw [blocks, Block.eventsList_append, Expr.eventsList_blocks, eventsList_blocks body, events]
  | .conditional condition thenCase elseCase => by
    rw [blocks, Block.eventsList_append, Block.eventsList_append, Expr.eventsList_blocks,
      eventsList_blocks thenCase, eventsList_blocksOption elseCase, events]
  | .sequence stmts => by
    rw [blocks, eventsList_blocksList stmts, events]
  | .evaluate value => by
    rw [blocks, Expr.eventsList_blocks, events]

theorem eventsList_blocksOption :
    ∀ s : Option Stmt, Block.eventsList (blocksOption s) = eventsOption s
  | none => rfl
  | some s => by
    rw [blocksOption, eventsList_blocks s, eventsOption]

theorem eventsList_blocksList :
    ∀ ss : List Stmt, Block.eventsList (blocksList ss) = eventsList ss
  | [] => rfl
  | s :: ss => by
    rw [blocksList, Block.eventsList_append, eventsList_blocks s, eventsList_blocksList ss,
      eventsList]

end

end Stmt

/-! ### What comes out of the scopes -/

namespace Block

/-- The trees of accesses that come out of scopes. -/
def ofAccesses (accesses : List Tree) : List (ScopeKind × Tree) := accesses.map (.memory, ·)

theorem ofAccesses_append (ts us : List Tree) :
    ofAccesses (ts ++ us) = ofAccesses ts ++ ofAccesses us :=
  List.map_append

theorem caught_ofAccesses (kind : ScopeKind) (accesses : List Tree) :
    caught kind (ofAccesses accesses) = Stmt.kept (kind.catches .memory) accesses := by
  cases h : kind.catches .memory <;> simp [caught, ofAccesses, Stmt.kept, List.filter_map, h]

theorem hungList_singleton (b : Block) : hungList [b] = b.hung :=
  List.append_nil _

/-- An access takes in no other access. -/
theorem hung_memory {buffer : Var} {index : Expr} {inside : List Block} {accesses : List Tree}
    (h : hungList inside = ofAccesses accesses) :
    (Block.memory buffer index inside).hung = ofAccesses (.access buffer index :: accesses) := by
  have hcaught : caught .memory (ofAccesses accesses) = [] := caught_ofAccesses _ _
  have hpassed : passed .memory (ofAccesses accesses) = ofAccesses accesses := by
    simp [passed, ofAccesses, ScopeKind.catches]
  rw [hung, h, hcaught, hpassed, index.vars_eq]
  rfl

/-- A loop takes in everything, so that only the loop itself comes out. -/
theorem caught_hung_loop (kind : ScopeKind) (v : Var) (n : Int64) (execution : Execution)
    (inside : List Block) :
    caught kind (Block.loop v n execution inside).hung =
      [Stmt.loopNode v (caught .loop (hungList inside))] := by
  have hpassed : passed .loop (hungList inside) = [] := by
    simp [passed, ScopeKind.catches]
  have hcatches : kind.catches .loop = true := by simp [ScopeKind.catches]
  simp [hung, hpassed, caught, hcatches, Stmt.loopNode]

end Block

namespace Expr

mutual

theorem hungList_blocks : ∀ e : Expr, Block.hungList e.blocks = Block.ofAccesses e.accesses
  | .var _ => rfl
  | .int _ => rfl
  | .float _ => rfl
  | .binary _ a b => by
    rw [blocks, Block.hungList_append, hungList_blocks a, hungList_blocks b, accesses,
      Block.ofAccesses_append]
  | .select c t f => by
    rw [blocks, Block.hungList_append, Block.hungList_append, hungList_blocks c,
      hungList_blocks t, hungList_blocks f, accesses, Block.ofAccesses_append,
      Block.ofAccesses_append]
  | .load buffer index predicate => by
    have hinside : Block.hungList (blocks index ++ blocksOption predicate) =
        Block.ofAccesses (accesses index ++ accessesOption predicate) := by
      rw [Block.hungList_append, hungList_blocks index, hungList_blocksOption predicate,
        Block.ofAccesses_append]
    rw [blocks, Block.hungList_singleton, Block.hung_memory hinside, accesses]
  | .call _ args => by
    rw [blocks, hungList_blocksList args, accesses]

theorem hungList_blocksOption :
    ∀ e : Option Expr, Block.hungList (blocksOption e) = Block.ofAccesses (accessesOption e)
  | none => rfl
  | some e => by
    rw [blocksOption, hungList_blocks e, accessesOption]

theorem hungList_blocksList :
    ∀ es : List Expr, Block.hungList (blocksList es) = Block.ofAccesses (accessesList es)
  | [] => rfl
  | e :: es => by
    rw [blocksList, Block.hungList_append, hungList_blocks e, hungList_blocksList es,
      accessesList, Block.ofAccesses_append]

end

theorem caught_hungList_blocks (kind : ScopeKind) (e : Expr) :
    Block.caught kind (Block.hungList e.blocks) =
      Stmt.kept (kind.catches .memory) e.accesses := by
  rw [hungList_blocks, Block.caught_ofAccesses]

end Expr

namespace Stmt

/-- The keys that bind threads are those of the attributes that open a loop scope. -/
theorem isSome_threadExecution? (key tag : String) :
    (threadExecution? key tag).isSome = bindsThreads key := by
  unfold threadExecution? bindsThreads
  by_cases hvirtual : key = "virtual_thread"
  · simp [hvirtual]
  · by_cases hextent : key = "thread_extent"
    · simp [hextent]
    · simp [hvirtual, hextent]

mutual

/-- **The trees that come out of the scopes of a statement are its nodes**: outside of loops, the
trees of accesses are lost. -/
theorem caught_hungList_blocks (kind : ScopeKind) : ∀ s : Stmt,
    Block.caught kind (Block.hungList s.blocks) = s.nodes (kind.catches .memory)
  | .loop v min extent execution body => by
    rw [blocks, Block.hungList_singleton, Block.caught_hung_loop, Block.hungList_append,
      Block.hungList_append, Block.caught_append, Block.caught_append,
      Expr.caught_hungList_blocks, Expr.caught_hungList_blocks, caught_hungList_blocks .loop body]
    rfl
  | .attribute key iterVar tag value body => by
    have hplain : Block.caught kind (Block.hungList (value.blocks ++ blocks body)) =
        kept (kind.catches .memory) value.accesses ++ nodes (kind.catches .memory) body := by
      rw [Block.hungList_append, Block.caught_append, Expr.caught_hungList_blocks,
        caught_hungList_blocks kind body]
    have hloop : Block.caught .loop (Block.hungList (value.blocks ++ blocks body)) =
        value.accesses ++ nodes true body := by
      rw [Block.hungList_append, Block.caught_append, Expr.caught_hungList_blocks,
        caught_hungList_blocks .loop body]
      rfl
    cases iterVar with
    | none => exact hplain
    | some v =>
      -- the key alone tells whether there is a scope; the tag only says how it runs
      have hkey := isSome_threadExecution? key tag
      cases hbinds : threadExecution? key tag with
      | none =>
        rw [hbinds] at hkey
        simpa only [blocks, nodes, hbinds, ← hkey, Option.isSome_none] using hplain
      | some execution =>
        rw [hbinds] at hkey
        simp only [blocks, nodes, hbinds, ← hkey, Option.isSome_some, Block.hungList_singleton,
          Block.caught_hung_loop, hloop]
  | .store buffer value index predicate => by
    have hinside : Block.hungList (value.blocks ++ index.blocks ++ Expr.blocksOption predicate) =
        Block.ofAccesses (value.accesses ++ index.accesses ++ Expr.accessesOption predicate) := by
      rw [Block.hungList_append, Block.hungList_append, Expr.hungList_blocks,
        Expr.hungList_blocks, Expr.hungList_blocksOption, Block.ofAccesses_append,
        Block.ofAccesses_append]
    rw [blocks, Block.hungList_singleton, Block.hung_memory hinside, Block.caught_ofAccesses,
      nodes]
  | .binding _ value body => by
    rw [blocks, Block.hungList_append, Block.caught_append, Expr.caught_hungList_blocks,
      caught_hungList_blocks kind body, nodes]
  | .conditional condition thenCase elseCase => by
    rw [blocks, Block.hungList_append, Block.hungList_append, Block.caught_append,
      Block.caught_append, Expr.caught_hungList_blocks, caught_hungList_blocks kind thenCase,
      caught_hungList_blocksOption kind elseCase, nodes]
  | .sequence stmts => by
    rw [blocks, caught_hungList_blocksList kind stmts, nodes]
  | .evaluate value => by
    rw [blocks, Expr.caught_hungList_blocks, nodes]

theorem caught_hungList_blocksOption (kind : ScopeKind) : ∀ s : Option Stmt,
    Block.caught kind (Block.hungList (blocksOption s)) = nodesOption (kind.catches .memory) s
  | none => rfl
  | some s => by
    rw [blocksOption, caught_hungList_blocks kind s, nodesOption]

theorem caught_hungList_blocksList (kind : ScopeKind) : ∀ ss : List Stmt,
    Block.caught kind (Block.hungList (blocksList ss)) = nodesList (kind.catches .memory) ss
  | [] => rfl
  | s :: ss => by
    rw [blocksList, Block.hungList_append, Block.caught_append, caught_hungList_blocks kind s,
      caught_hungList_blocksList kind ss, nodesList]

end

/-- A program that enters no scope has no nodes anywhere, and the other way around. -/
theorem isEmpty_blocks (s : Stmt) : s.blocks.isEmpty = (s.nodes true).isEmpty := by
  have hnodes : s.nodes true = (Block.hungList s.blocks).map (·.2) := by
    have hcaught : Block.caught .loop (Block.hungList s.blocks) = s.nodes true :=
      caught_hungList_blocks .loop s
    rw [← hcaught]
    simp [Block.caught, ScopeKind.catches]
  rw [hnodes]
  cases s.blocks with
  | nil => rfl
  | cons b bs => cases b <;> rfl

/-- **The tree of a program is its graph.** -/
theorem tree?_eq (s : Stmt) : s.tree? = .ok s.graph := by
  rw [tree?, ← eventsList_blocks, Assembly.ofEvents_eventsList, Block.graph, isEmpty_blocks,
    caught_hungList_blocks .root s]
  rfl

end Stmt

end AccessGraph
