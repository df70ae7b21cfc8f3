/-!
# Loop nests

The language of tensor kernels: statements own their bodies and expressions own their operands.

* `Var` : a variable, told apart from others by its name together with a number.
* `LoopKind`, `Operator` : how a loop runs, and the operators on two values.
* `Expr`, `Stmt` : expressions and statements.
* `Expr.same`, `Stmt.same` : equality of programs, in which float literals are compared as numbers,
  so that the two zeros are the same.
-/

namespace AccessGraph

/-- A scalar variable or the handle of a buffer. Two variables are the same when both the name and
the number agree. -/
structure Var where
  /-- The name that the variable goes by. -/
  name : String
  /-- Tells apart variables of one name. -/
  id : UInt32
  deriving DecidableEq, Repr

/-- The variable of number zero that has this name. -/
def Var.named (name : String) : Var := ⟨name, 0⟩

/-- How the iterations of a loop are run. -/
inductive LoopKind where
  | serial
  | parallel
  | vectorized
  | unrolled
  deriving DecidableEq, Repr

/-- Operators on two values. -/
inductive Operator where
  | add
  | sub
  | mul
  | div
  | mod
  | floorDiv
  | floorMod
  | min
  | max
  | eq
  | ne
  | lt
  | le
  | gt
  | ge
  | and
  | or
  deriving DecidableEq, Repr

/-- Expressions. -/
inductive Expr where
  /-- The value of a variable. -/
  | var (v : Var)
  /-- An integer literal. -/
  | int (value : Int64)
  /-- A floating-point literal. -/
  | float (value : Float)
  /-- An operator applied to two operands. -/
  | binary (op : Operator) (a b : Expr)
  /-- One of two values, chosen by a condition. -/
  | select (condition whenTrue whenFalse : Expr)
  /-- The element of a buffer at an index, read only where the predicate holds if there is one. -/
  | load (buffer : Var) (index : Expr) (predicate : Option Expr)
  /-- A call of a function by name. -/
  | call (name : String) (args : List Expr)

/-- Statements. -/
inductive Stmt where
  /-- The body for each value of the loop variable from `min` on, `extent` times. -/
  | loop (loopVar : Var) (min extent : Expr) (kind : LoopKind) (body : Stmt)
  /-- A body under an attribute. Some keys bind a thread variable over `value` iterations. -/
  | attribute (key : String) (iterVar : Option Var) (threadTag : String) (value : Expr)
      (body : Stmt)
  /-- A write to a buffer at an index, done only where the predicate holds if there is one. -/
  | store (buffer : Var) (value index : Expr) (predicate : Option Expr)
  /-- A body in which a variable stands for a value. -/
  | binding (var : Var) (value : Expr) (body : Stmt)
  /-- One statement or another, chosen by a condition. -/
  | conditional (condition : Expr) (thenCase : Stmt) (elseCase : Option Stmt)
  /-- Statements one after the other. -/
  | sequence (stmts : List Stmt)
  /-- An expression that is evaluated for its effect. -/
  | evaluate (value : Expr)

namespace Expr

/-- The variable of number zero that has this name. -/
def named (name : String) : Expr := .var (.named name)

/-- The element at `index` of the buffer that has this name, whatever the surroundings. -/
def loadFrom (buffer : String) (index : Expr) : Expr := .load (.named buffer) index none

/-- The value of an integer literal. -/
def asInt : Expr → Option Int64
  | .int value => some value
  | _ => none

mutual

/-- Equality of expressions. -/
def same : Expr → Expr → Bool
  | .var v, .var w => v == w
  | .int x, .int y => x == y
  | .float x, .float y => x == y
  | .binary op a b, .binary op' a' b' => op == op' && same a a' && same b b'
  | .select c t f, .select c' t' f' => same c c' && same t t' && same f f'
  | .load v i p, .load v' i' p' => v == v' && same i i' && sameOption p p'
  | .call n as, .call n' as' => n == n' && sameList as as'
  | _, _ => false

/-- Equality of expressions that may be absent. -/
def sameOption : Option Expr → Option Expr → Bool
  | none, none => true
  | some e, some e' => same e e'
  | _, _ => false

/-- Equality of lists of expressions. -/
def sameList : List Expr → List Expr → Bool
  | [], [] => true
  | e :: es, e' :: es' => same e e' && sameList es es'
  | _, _ => false

end

end Expr

namespace Stmt

/-- The serial loop over `[0, extent)`. -/
def serialLoop (var : String) (extent : Int64) (body : Stmt) : Stmt :=
  .loop (.named var) (.int 0) (.int extent) .serial body

/-- A write of `value` to the buffer that has this name, whatever the surroundings. -/
def storeTo (buffer : String) (index value : Expr) : Stmt :=
  .store (.named buffer) value index none

/-- The program that does nothing. -/
def empty : Stmt := .sequence []

mutual

/-- Equality of statements. -/
def same : Stmt → Stmt → Bool
  | .loop v m e k b, .loop v' m' e' k' b' =>
    v == v' && m.same m' && e.same e' && k == k' && same b b'
  | .attribute k i t v b, .attribute k' i' t' v' b' =>
    k == k' && i == i' && t == t' && v.same v' && same b b'
  | .store b v i p, .store b' v' i' p' =>
    b == b' && v.same v' && i.same i' && Expr.sameOption p p'
  | .binding x v b, .binding x' v' b' => x == x' && v.same v' && same b b'
  | .conditional c t e, .conditional c' t' e' => c.same c' && same t t' && sameOption e e'
  | .sequence ss, .sequence ss' => sameList ss ss'
  | .evaluate v, .evaluate v' => v.same v'
  | _, _ => false

/-- Equality of statements that may be absent. -/
def sameOption : Option Stmt → Option Stmt → Bool
  | none, none => true
  | some s, some s' => same s s'
  | _, _ => false

/-- Equality of lists of statements. -/
def sameList : List Stmt → List Stmt → Bool
  | [], [] => true
  | s :: ss, s' :: ss' => same s s' && sameList ss ss'
  | _, _ => false

end

end Stmt

end AccessGraph
