import AccessGraph.Event
import AccessGraph.Tree
/-!
# Assembling a graph from events

Nodes are laid down in a store as the events come in, so that open scopes can refer to them by
number.

* `Cell` : a node of the store, with its label and numbered links to the nodes below it.
* `Scope` : an open scope, which is the root, a loop or a memory access.
* `Assembly` : the store, the open scopes, and the first violation of the nesting of scopes.
* `Assembly.step`, `Assembly.run` : the effect of one event and of several.

A loop is linked below the innermost open scope, whatever its kind. A memory access is linked below
the innermost open loop; outside all loops it is linked nowhere. After a violation no event has any
effect, apart from being counted.
-/

namespace AccessGraph

/-- A node of the store. -/
structure Cell where
  /-- The label of the node. -/
  label : String
  /-- The numbers of the nodes below, in order, with the kinds of the edges. -/
  links : Array (EdgeKind × Nat)
  deriving Repr

namespace Cell

/-- The node that nothing is known of. -/
def empty : Cell := ⟨"", #[]⟩

/-- The node without links. -/
def leaf (label : String) : Cell := ⟨label, #[]⟩

/-- A link to one more node below. -/
def link (c : Cell) (child : Nat) : Cell := { c with links := c.links.push (.structural, child) }

end Cell

/-- What a scope stands for. -/
inductive ScopeKind where
  | root
  | loop
  | memory
  deriving DecidableEq, Repr

namespace ScopeKind

/-- The name of a kind of scope. -/
def name : ScopeKind → String
  | .root => "root"
  | .loop => "loop"
  | .memory => "memory"

/-- The name of the event that closes a scope of this kind. -/
def exitName : ScopeKind → String
  | .root => "exit"
  | .loop => "exit_loop"
  | .memory => "exit_mem"

end ScopeKind

/-- An open scope. -/
structure Scope where
  /-- The number of its node. -/
  cell : Nat
  /-- What it stands for. -/
  kind : ScopeKind
  deriving DecidableEq, Repr

/-- How the nesting of scopes can be violated. -/
inductive Violation where
  /-- A scope of this kind is left although only the root is open. -/
  | underflow (left : ScopeKind)
  /-- A scope of one kind is left although the innermost open scope is of another. -/
  | mismatch (left found : ScopeKind)
  /-- The events end while this many scopes are still open. -/
  | unterminated (count : Nat)
  deriving DecidableEq, Repr

namespace Violation

/-- What a violation is reported as. -/
def message : Violation → String
  | .underflow left => "scope underflow: " ++ left.exitName ++ " with no open scope"
  | .mismatch left found =>
    "scope mismatch: " ++ left.exitName ++ " closed a " ++ found.name ++ " scope"
  | .unterminated count =>
    "unterminated scopes: " ++ toString count ++ " scope(s) still open at end of traversal"

end Violation

/-- A graph in the making. -/
structure Assembly where
  /-- The nodes laid down so far, by number. -/
  cells : Array Cell
  /-- The open scopes, innermost first and the root last. -/
  scopes : List Scope
  /-- The first violation of the nesting. -/
  violation : Option Violation
  /-- How many events have come in. -/
  events : Nat
  deriving Repr

namespace Assembly

/-- Only the root is laid down and open. -/
def start : Assembly := ⟨#[.leaf Tree.rootLabel], [⟨0, .root⟩], none, 0⟩

/-- How many scopes are open, the root not counted. -/
def depth (s : Assembly) : Nat := s.scopes.length - 1

/-- The innermost open scope. -/
def innermost? (s : Assembly) : Option Scope := s.scopes.head?

/-- The innermost open loop. -/
def innermostLoop? (s : Assembly) : Option Scope := s.scopes.find? (·.kind = .loop)

/-- Lay down a node and the leaves below it. -/
def lay (cells : Array Cell) (label : String) (leaves : List String) : Array Cell :=
  let first := cells.size + 1
  let links := leaves.zipIdx first |>.map fun (_, number) => (EdgeKind.structural, number)
  cells.push ⟨label, links.toArray⟩ ++ (leaves.map Cell.leaf).toArray

/-- Link a node below the node of a scope, if there is such a scope. -/
def attach (cells : Array Cell) (parent : Option Scope) (child : Nat) : Array Cell :=
  match parent with
  | none => cells
  | some scope => cells.modify scope.cell (·.link child)

/-- Open a scope whose node comes with leaves below it, and hangs below the node of another scope if
there is one. -/
def openScope (s : Assembly) (kind : ScopeKind) (label : String) (leaves : List String)
    (parent : Option Scope) : Assembly :=
  match s with
  | ⟨cells, scopes, violation, events⟩ =>
    let node := cells.size
    ⟨attach (lay cells label leaves) parent node, ⟨node, kind⟩ :: scopes, violation, events⟩

/-- Open a loop over a variable: its node comes with a leaf for the variable, and hangs below the
innermost open scope. -/
def enterLoop (s : Assembly) (v : Var) : Assembly :=
  s.openScope .loop Tree.loopLabel [v.name] s.innermost?

/-- Open a memory access: its node comes with a leaf for each variable of the index, and hangs below
the innermost open loop. -/
def enterMemory (s : Assembly) (buffer : Var) (index : Expr) : Assembly :=
  s.openScope .memory buffer.name (index.vars.map (·.name)) s.innermostLoop?

/-- Leave the innermost scope, which has to be of the given kind. -/
def exit (s : Assembly) (kind : ScopeKind) : Assembly :=
  match s.scopes with
  | [] => { s with violation := some (.underflow kind) }
  | scope :: outer =>
    if scope.kind = .root then { s with violation := some (.underflow kind) }
    else if scope.kind = kind then { s with scopes := outer }
    else { s with violation := some (.mismatch kind scope.kind) }

/-- The effect of an event on an assembly without violation. -/
def apply (s : Assembly) : Event → Assembly
  | .enterLoop v _ _ => s.enterLoop v
  | .exitLoop => s.exit .loop
  | .enterMemory buffer index => s.enterMemory buffer index
  | .exitMemory => s.exit .memory

/-- The effect of an event: it is counted, and applied unless there has been a violation. -/
def step (s : Assembly) (e : Event) : Assembly :=
  let s := { s with events := s.events + 1 }
  if s.violation.isSome then s else s.apply e

/-- The effect of several events. -/
def run (s : Assembly) (events : List Event) : Assembly := events.foldl step s

end Assembly

end AccessGraph
