import AccessGraph.Json.Printer
import AccessGraph.Json.Variant
import AccessGraph.Program.Names
/-!
# Programs as JSON

`Var.toJson`, `Expr.toJson` and `Stmt.toJson` write a program with all of its fields in their own
order, behind the tag; a part that is absent is written as `null`.
-/

namespace AccessGraph

open Json

/-- An object with a tag in front. -/
def tagged (tag : String) (fields : List (String × Value)) : Value :=
  .object ((tagName, .string tag) :: fields)

namespace Var

/-- The fields of a variable. -/
def toFields (v : Var) : List (String × Value) :=
  [("name", .string v.name), ("id", .number (.int v.id.toNat))]

/-- A variable as an object. -/
def toJson (v : Var) : Value := .object v.toFields

end Var

namespace Expr

mutual

/-- An expression as an object. -/
def toJson : Expr → Value
  | .var v => tagged "var" v.toFields
  | .int value => tagged "int" [("value", .number (.int value.toInt))]
  | .float value => tagged "float" [("value", .number (.double value))]
  | .binary op a b => tagged "binary" [("op", .string op.name), ("a", toJson a), ("b", toJson b)]
  | .select c t f =>
    tagged "select" [("condition", toJson c), ("true_value", toJson t), ("false_value", toJson f)]
  | .load buffer index predicate =>
    tagged "load" [("buffer_var", buffer.toJson), ("index", toJson index),
      ("predicate", toJsonOption predicate)]
  | .call name args => tagged "call" [("name", .string name), ("args", .array (toJsonList args))]

/-- An expression, or `null`. -/
def toJsonOption : Option Expr → Value
  | none => .null
  | some e => toJson e

/-- Expressions as the items of an array. -/
def toJsonList : List Expr → List Value
  | [] => []
  | e :: es => toJson e :: toJsonList es

end

end Expr

namespace Stmt

mutual

/-- A statement as an object. -/
def toJson : Stmt → Value
  | .loop v min extent kind body =>
    tagged "for" [("loop_var", v.toJson), ("min", min.toJson), ("extent", extent.toJson),
      ("for_kind", .string kind.name), ("body", toJson body)]
  | .attribute key iterVar threadTag value body =>
    tagged "attr" [("attr_key", .string key), ("iter_var", (iterVar.map Var.toJson).getD .null),
      ("thread_tag", .string threadTag), ("value", value.toJson), ("body", toJson body)]
  | .store buffer value index predicate =>
    tagged "store" [("buffer_var", buffer.toJson), ("value", value.toJson),
      ("index", index.toJson), ("predicate", Expr.toJsonOption predicate)]
  | .binding v value body =>
    tagged "let" [("var", v.toJson), ("value", value.toJson), ("body", toJson body)]
  | .conditional condition thenCase elseCase =>
    tagged "if_then_else" [("condition", condition.toJson), ("then_case", toJson thenCase),
      ("else_case", toJsonOption elseCase)]
  | .sequence stmts => tagged "seq" [("stmts", .array (toJsonList stmts))]
  | .evaluate value => tagged "evaluate" [("value", value.toJson)]

/-- A statement, or `null`. -/
def toJsonOption : Option Stmt → Value
  | none => .null
  | some s => toJson s

/-- Statements as the items of an array. -/
def toJsonList : List Stmt → List Value
  | [] => []
  | s :: ss => toJson s :: toJsonList ss

end

end Stmt

end AccessGraph
