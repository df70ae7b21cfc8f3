import AccessGraph.Program.Execution
import AccessGraph.Program.Variables
/-!
# The scopes of a program

Walking a program opens and closes two kinds of scopes: a loop scope for each loop and for each
thread binding, and a memory scope for each access to a buffer.

* `Event` : a scope is entered or left.
* `Expr.events`, `Stmt.events` : the events of a program, in the order of its text. The bounds of a
  loop belong to the scope that the loop opens, and the operands of an access to the scope of the
  access.
-/

namespace AccessGraph

/-- A scope is entered or left. -/
inductive Event where
  /-- A loop over `var` is entered; the trip count is `-1` where it is not a literal. -/
  | enterLoop (var : Var) (tripCount : Int64) (execution : Execution)
  /-- The innermost scope, which has to be a loop, is left. -/
  | exitLoop
  /-- An access to the element of `buffer` at `index` is entered. -/
  | enterMemory (buffer : Var) (index : Expr)
  /-- The innermost scope, which has to be an access, is left. -/
  | exitMemory

namespace Expr

/-- How often a loop of this extent runs, as far as the extent tells: `-1` if it is no literal. -/
def tripCount (extent : Expr) : Int64 := extent.asInt.getD (-1)

mutual

/-- The accesses of an expression. A load comes before the loads among its operands. -/
def events : Expr → List Event
  | .var _ => []
  | .int _ => []
  | .float _ => []
  | .binary _ a b => events a ++ events b
  | .select c t f => events c ++ events t ++ events f
  | .load buffer index predicate =>
    .enterMemory buffer index :: (events index ++ eventsOption predicate ++ [.exitMemory])
  | .call _ args => eventsList args

/-- The accesses of an expression that may be absent. -/
def eventsOption : Option Expr → List Event
  | none => []
  | some e => events e

/-- The accesses of several expressions. -/
def eventsList : List Expr → List Event
  | [] => []
  | e :: es => events e ++ eventsList es

end

end Expr

namespace Stmt

/-- The execution of the loop scope that an attribute opens when it has a variable to bind: the keys
`thread_extent` and `virtual_thread` bind threads, all others open no scope. -/
def threadExecution? (key tag : String) : Option Execution :=
  if key = "virtual_thread" then some .virtualThread
  else if key = "thread_extent" then some (.ofThreadTag tag)
  else none

mutual

/-- The events of a statement. -/
def events : Stmt → List Event
  | .loop v min extent kind body =>
    .enterLoop v extent.tripCount (.ofLoopKind kind) ::
      (min.events ++ extent.events ++ events body ++ [.exitLoop])
  | .attribute key iterVar tag value body =>
    match iterVar, threadExecution? key tag with
    | some v, some execution =>
      .enterLoop v value.tripCount execution :: (value.events ++ events body ++ [.exitLoop])
    | _, _ => value.events ++ events body
  | .store buffer value index predicate =>
    .enterMemory buffer index ::
      (value.events ++ index.events ++ Expr.eventsOption predicate ++ [.exitMemory])
  | .binding _ value body => value.events ++ events body
  | .conditional condition thenCase elseCase =>
    condition.events ++ events thenCase ++ eventsOption elseCase
  | .sequence stmts => eventsList stmts
  | .evaluate value => value.events

/-- The events of a statement that may be absent. -/
def eventsOption : Option Stmt → List Event
  | none => []
  | some s => events s

/-- The events of several statements. -/
def eventsList : List Stmt → List Event
  | [] => []
  | s :: ss => events s ++ eventsList ss

end

end Stmt

end AccessGraph
