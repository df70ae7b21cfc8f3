import AccessGraph.Program.Basic
/-!
# The written names of kinds and operators

`LoopKind.name` and `Operator.name` are the names that stand for kinds of loops and for operators in
the text of a program; `LoopKind.names` and `Operator.names` list them all, to look a name up.
-/

namespace AccessGraph

namespace LoopKind

/-- The written name of a kind of loop. -/
def name : LoopKind → String
  | .serial => "serial"
  | .parallel => "parallel"
  | .vectorized => "vectorized"
  | .unrolled => "unrolled"

/-- All kinds of loops. -/
def all : List LoopKind := [.serial, .parallel, .vectorized, .unrolled]

/-- All kinds of loops by their written names. -/
def names : List (String × LoopKind) := all.map fun k => (k.name, k)

end LoopKind

namespace Operator

/-- The written name of an operator. -/
def name : Operator → String
  | .add => "add"
  | .sub => "sub"
  | .mul => "mul"
  | .div => "div"
  | .mod => "mod"
  | .floorDiv => "floor_div"
  | .floorMod => "floor_mod"
  | .min => "min"
  | .max => "max"
  | .eq => "eq"
  | .ne => "ne"
  | .lt => "lt"
  | .le => "le"
  | .gt => "gt"
  | .ge => "ge"
  | .and => "and"
  | .or => "or"

/-- All operators. -/
def all : List Operator :=
  [.add, .sub, .mul, .div, .mod, .floorDiv, .floorMod, .min, .max, .eq, .ne, .lt, .le, .gt, .ge,
    .and, .or]

/-- All operators by their written names. -/
def names : List (String × Operator) := all.map fun o => (o.name, o)

end Operator

end AccessGraph
