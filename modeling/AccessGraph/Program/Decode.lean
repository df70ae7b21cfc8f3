import AccessGraph.Json.Enumeration
import AccessGraph.Json.Variant
import AccessGraph.Program.Names
/-!
# Programs out of JSON

* `Shape` : what the parts of a program are, and `Shape.Carrier`, the type of each.
* `Var.fields`, `Expr.choice`, `Stmt.choice` : how variables, expressions and statements are written.
  This is the whole description of the format; everything else follows from it.
* `decode` : a part of a program out of a value, by recursion on the nesting of the value.
* `Expr.ofJson`, `Stmt.ofJson`, `LoopKind.ofJson` : expressions, statements and kinds of loops out of a
  text.
-/

namespace AccessGraph

open Json

/-- What the parts of a program are. -/
inductive Shape where
  | string
  | int
  | word
  | float
  | loopKind
  | operator
  | var
  | expr
  | stmt
  /-- A part that may be absent. -/
  | option (s : Shape)
  /-- Parts one after the other. -/
  | list (s : Shape)
  deriving DecidableEq, Repr

/-- The type of the parts of some shape. -/
@[reducible] def Shape.Carrier : Shape → Type
  | string => String
  | int => Int64
  | word => UInt32
  | float => Float
  | loopKind => LoopKind
  | operator => Operator
  | var => Var
  | expr => Expr
  | stmt => Stmt
  | option s => Option s.Carrier
  | list s => List s.Carrier

/-! ### The format -/

/-- A field that has to be present. -/
def required (name : String) (shape : Shape) : Field Shape.Carrier := ⟨name, shape, none⟩

/-- A field that is taken to be `x` where it is absent. -/
def defaulting (name : String) (shape : Shape) (x : shape.Carrier) : Field Shape.Carrier :=
  ⟨name, shape, some x⟩

/-- The fields of a variable. -/
def Var.fields : List (Field Shape.Carrier) :=
  [required "name" .string, defaulting "id" .word 0]

/-- The variable with these fields. -/
def Var.ofFields : Record Shape.Carrier Var.fields → Var
  | (name, id, ()) => ⟨name, id⟩

/-- What messages call a variable. -/
def Var.title : String := "struct Var"

/-- The variants of expressions. -/
def Expr.choice : Choice Shape.Carrier Expr where
  title := "internally tagged enum Expr"
  variants :=
    [ { name := "var"
        title := Var.title
        fields := Var.fields
        build := fun r => .var (Var.ofFields r) },
      { name := "int"
        title := "struct variant Expr::Int"
        fields := [required "value" .int]
        build := fun (value, ()) => .int value },
      { name := "float"
        title := "struct variant Expr::Float"
        fields := [required "value" .float]
        build := fun (value, ()) => .float value },
      { name := "binary"
        title := "struct variant Expr::Binary"
        fields := [required "op" .operator, required "a" .expr, required "b" .expr]
        build := fun (op, a, b, ()) => .binary op a b },
      { name := "select"
        title := "struct variant Expr::Select"
        fields := [required "condition" .expr, required "true_value" .expr,
          required "false_value" .expr]
        build := fun (condition, whenTrue, whenFalse, ()) =>
          .select condition whenTrue whenFalse },
      { name := "load"
        title := "struct variant Expr::Load"
        fields := [required "buffer_var" .var, required "index" .expr,
          defaulting "predicate" (.option .expr) none]
        build := fun (buffer, index, predicate, ()) => .load buffer index predicate },
      { name := "call"
        title := "struct variant Expr::Call"
        fields := [required "name" .string, defaulting "args" (.list .expr) []]
        build := fun (name, args, ()) => .call name args } ]

/-- The variants of statements. -/
def Stmt.choice : Choice Shape.Carrier Stmt where
  title := "internally tagged enum Stmt"
  variants :=
    [ { name := "for"
        title := "struct variant Stmt::For"
        fields := [required "loop_var" .var, defaulting "min" .expr (.int 0),
          required "extent" .expr, defaulting "for_kind" .loopKind .serial, required "body" .stmt]
        build := fun (loopVar, min, extent, kind, body, ()) => .loop loopVar min extent kind body },
      { name := "attr"
        title := "struct variant Stmt::Attr"
        fields := [required "attr_key" .string, defaulting "iter_var" (.option .var) none,
          defaulting "thread_tag" .string "", required "value" .expr, required "body" .stmt]
        build := fun (key, iterVar, threadTag, value, body, ()) =>
          .attribute key iterVar threadTag value body },
      { name := "store"
        title := "struct variant Stmt::Store"
        fields := [required "buffer_var" .var, required "value" .expr, required "index" .expr,
          defaulting "predicate" (.option .expr) none]
        build := fun (buffer, value, index, predicate, ()) =>
          .store buffer value index predicate },
      { name := "let"
        title := "struct variant Stmt::Let"
        fields := [required "var" .var, required "value" .expr, required "body" .stmt]
        build := fun (v, value, body, ()) => .binding v value body },
      { name := "if_then_else"
        title := "struct variant Stmt::IfThenElse"
        fields := [required "condition" .expr, required "then_case" .stmt,
          defaulting "else_case" (.option .stmt) none]
        build := fun (condition, thenCase, elseCase, ()) =>
          .conditional condition thenCase elseCase },
      { name := "seq"
        title := "struct variant Stmt::Seq"
        fields := [required "stmts" (.list .stmt)]
        build := fun (stmts, ()) => .sequence stmts },
      { name := "evaluate"
        title := "struct variant Stmt::Evaluate"
        fields := [required "value" .expr]
        build := fun (value, ()) => .evaluate value } ]

/-! ### Decoding -/

/-- An integer between two bounds, which are included. -/
def decodeInteger (low high : Int) (expected : String) : Value → Except Fault Int
  | .number (.int n) =>
    if low ≤ n ∧ n ≤ high then .ok n else .error (.invalidValue (.int n) expected)
  | v => .error (.invalidType (.ofValue v) expected)

/-- A double; an integer is converted. -/
def decodeFloat : Value → Except Fault Float
  | .number (.int n) => .ok (Float.ofInt n)
  | .number (.double x) => .ok x
  | v => .error (.invalidType (.ofValue v) "f64")

/-- A string. -/
def decodeString : Value → Except Fault String
  | .string s => .ok s
  | v => .error (.invalidType (.ofValue v) "a string")

/-- The items of an array. -/
def decodeItems : Value → Except Fault (List Value)
  | .array items => .ok items
  | v => .error (.invalidType (.ofValue v) "a sequence")

/-- The variable that a value stands for, its parts decoded by `part`. A variable is a record without
a tag. -/
def decodeVar (part : (s : Shape) → Value → Except Fault s.Carrier) (v : Value) :
    Except Fault Var := do
  let variant : Variant Shape.Carrier Var := ⟨"", Var.title, Var.fields, Var.ofFields⟩
  match v with
  | .array items => Tagged.decode part ⟨variant, .items items⟩
  | .object members => Tagged.decode part ⟨variant, .members members⟩
  | v => .error (.invalidType (.ofValue v) Var.title)

/-- The part of a program that a value stands for, where the parts inside its brackets are decoded by
`part`. -/
def decodeWith (part : (s : Shape) → Value → Except Fault s.Carrier) :
    (s : Shape) → Value → Except Fault s.Carrier
  | .string, v => decodeString v
  | .int, v => do
    .ok (Int64.ofInt (← decodeInteger Int64.minValue.toInt Int64.maxValue.toInt "i64" v))
  | .word, v => do .ok (UInt32.ofNat (← decodeInteger 0 0xffffffff "u32" v).toNat)
  | .float, v => decodeFloat v
  | .loopKind, v => Enumeration.ofValue LoopKind.names v
  | .operator, v => Enumeration.ofValue Operator.names v
  | .var, v => decodeVar part v
  | .expr, v => do Tagged.decode part (← Tagged.ofValue Expr.choice v)
  | .stmt, v => do Tagged.decode part (← Tagged.ofValue Stmt.choice v)
  | .option _, .null => .ok none
  | .option s, v => do .ok (some (← decodeWith part s v))
  | .list s, v => do (← decodeItems v).mapM (part s)

/-- The part of a program that a value stands for, if at most `depth` brackets lie inside each other
in the value. -/
def decode : (depth : Nat) → (s : Shape) → Value → Except Fault s.Carrier
  | 0 => decodeWith fun _ _ => .error .tooDeep
  | depth + 1 => decodeWith (decode depth)

/-- Read a value of several variants and decode its fields. -/
def readTagged {α : Type} (choice : Choice Shape.Carrier α) (fuel : Nat) (cs : List Char) :
    Except Fault (α × List Char) := do
  let (tagged, rest) ← Tagged.read choice fuel cs
  .ok (← Tagged.decode (decode nestingLimit) tagged, rest)

/-- The expression that a text stands for. -/
def Expr.ofJson (text : String) : Except Fault Expr := readText (readTagged Expr.choice) text

/-- The statement that a text stands for. -/
def Stmt.ofJson (text : String) : Except Fault Stmt := readText (readTagged Stmt.choice) text

/-- The kind of loop that a text names. -/
def LoopKind.ofJson (text : String) : Except Fault LoopKind :=
  readText (fun _ => Enumeration.read LoopKind.names) text

end AccessGraph
