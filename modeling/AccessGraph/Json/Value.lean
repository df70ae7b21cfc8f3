/-!
# JSON values

* `Json.Number` : an exact integer or a double, as the spelling of a number tells them apart.
* `Json.Value` : values. An object keeps its members in the order of the text, and a name may stand
  in it more than once.
* `Json.Value.nesting` : how deep arrays and objects lie inside each other.
-/

namespace AccessGraph.Json

/-- A number. -/
inductive Number where
  /-- An integer; those that are read from a text lie between `-2 ^ 63` and `2 ^ 64 - 1`. -/
  | int (value : Int)
  /-- A double. -/
  | double (value : Float)
  deriving Repr

/-- A value. -/
inductive Value where
  | null
  | bool (value : Bool)
  | number (value : Number)
  | string (text : String)
  | array (items : List Value)
  | object (members : List (String × Value))
  deriving Repr, Inhabited

namespace Value

mutual

/-- How deep arrays and objects lie inside each other. -/
def nesting : Value → Nat
  | null => 0
  | bool _ => 0
  | number _ => 0
  | string _ => 0
  | array items => 1 + nestingItems items
  | object members => 1 + nestingMembers members

/-- The greatest nesting of several values. -/
def nestingItems : List Value → Nat
  | [] => 0
  | v :: vs => max (nesting v) (nestingItems vs)

/-- The greatest nesting of the values of several members. -/
def nestingMembers : List (String × Value) → Nat
  | [] => 0
  | (_, v) :: vs => max (nesting v) (nestingMembers vs)

end

end Value

end AccessGraph.Json
