import AccessGraph.Program.Basic
/-!
# The variables of an expression

`Expr.vars` lists the distinct variables that an expression reads, in the order of `Var`:
by name, and by number among variables of one name. Names are compared code point by code point,
which is also the order of their UTF-8 bytes.

* `Var.before` : the order.
* `Var.insert` : a variable enters a strictly increasing list of variables once.
* `Expr.collect` : the variables of an expression enter a list.

The handle of a buffer is not read as a variable; only the index and the predicate of a load are.
-/

namespace AccessGraph

namespace Var

/-- The order of variables: by name first, then by number. -/
def before (v w : Var) : Bool := v.name < w.name || (v.name == w.name && v.id < w.id)

/-- Put a variable in its place in a strictly increasing list, unless it is there. -/
def insert (v : Var) : List Var → List Var
  | [] => [v]
  | w :: ws => if v = w then w :: ws else if v.before w then v :: w :: ws else w :: insert v ws

end Var

namespace Expr

mutual

/-- Put the variables of an expression into a strictly increasing list. -/
def collect : Expr → List Var → List Var
  | .var v, seen => v.insert seen
  | .int _, seen => seen
  | .float _, seen => seen
  | .binary _ a b, seen => collect b (collect a seen)
  | .select c t f, seen => collect f (collect t (collect c seen))
  | .load _ index predicate, seen => collectOption predicate (collect index seen)
  | .call _ args, seen => collectList args seen

/-- Put the variables of an expression, if there is one, into a strictly increasing list. -/
def collectOption : Option Expr → List Var → List Var
  | none, seen => seen
  | some e, seen => collect e seen

/-- Put the variables of several expressions into a strictly increasing list. -/
def collectList : List Expr → List Var → List Var
  | [], seen => seen
  | e :: es, seen => collectList es (collect e seen)

end

/-- The distinct variables that an expression reads, in increasing order. -/
def vars (e : Expr) : List Var := e.collect []

end Expr

end AccessGraph
