import AccessGraph.Decimal.Double
import AccessGraph.Json.Value
/-!
# Writing JSON

* `Json.escapeChar`, `Json.writeString` : strings between quotes. Only what has to be escaped is.
* `Json.Spacing` : the blanks between the parts of a text; `Spacing.none` writes everything on one
  line, and `Spacing.indented` gives each item a line of its own.
* `Json.Value.write` : a value as text.
-/

namespace AccessGraph.Json

/-- A character inside a string. Quotes, backslashes and controls are escaped, the latter by a
letter where there is one and by their code point otherwise. -/
def escapeChar (c : Char) : List Char :=
  if c = '"' then ['\\', '"']
  else if c = '\\' then ['\\', '\\']
  else if c = '\x08' then ['\\', 'b']
  else if c = '\t' then ['\\', 't']
  else if c = '\n' then ['\\', 'n']
  else if c = '\x0c' then ['\\', 'f']
  else if c = '\r' then ['\\', 'r']
  else if c.toNat < 0x20 then
    ['\\', 'u', '0', '0', Nat.digitChar (c.toNat / 16), Nat.digitChar (c.toNat % 16)]
  else [c]

/-- A string with its quotes. -/
def writeString (s : String) : List Char := '"' :: (s.toList.flatMap escapeChar ++ ['"'])

/-- An integer. -/
def writeInt (n : Int) : List Char :=
  if n < 0 then '-' :: Nat.toDigits 10 n.natAbs else Nat.toDigits 10 n.natAbs

/-- A number. There is no text for a double that is not finite. -/
def Number.write : Number → List Char
  | .int n => writeInt n
  | .double x => if x.isFinite then (DoubleStyle.compact.write x).toList else "null".toList

/-- The blanks between the parts of a text. -/
structure Spacing where
  /-- What stands before each item on some level, and before the bracket that closes it. -/
  gap : Nat → List Char
  /-- What stands between a colon and the value. -/
  afterColon : List Char

/-- No blanks at all. -/
def Spacing.none : Spacing := ⟨fun _ => [], []⟩

/-- Each item on a line of its own, two spaces further in than the line of its bracket. -/
def Spacing.indented : Spacing := ⟨fun level => '\n' :: List.replicate (2 * level) ' ', [' ']⟩

namespace Value

mutual

/-- A value as text, inside of `level` brackets. -/
def write (spacing : Spacing) (level : Nat) : Value → List Char
  | null => "null".toList
  | bool b => (if b then "true" else "false").toList
  | number n => n.write
  | string s => writeString s
  | array [] => ['[', ']']
  | array (v :: vs) =>
    '[' :: (spacing.gap (level + 1) ++ write spacing (level + 1) v ++
      writeItems spacing (level + 1) vs ++ spacing.gap level ++ [']'])
  | object [] => ['\x7b', '\x7d']
  | object ((name, v) :: members) =>
    '\x7b' :: (spacing.gap (level + 1) ++ writeString name ++ ':' :: spacing.afterColon ++
      write spacing (level + 1) v ++ writeMembers spacing (level + 1) members ++
      spacing.gap level ++ ['\x7d'])

/-- The items after the first one. -/
def writeItems (spacing : Spacing) (level : Nat) : List Value → List Char
  | [] => []
  | v :: vs => ',' :: (spacing.gap level ++ write spacing level v ++ writeItems spacing level vs)

/-- The members after the first one. -/
def writeMembers (spacing : Spacing) (level : Nat) : List (String × Value) → List Char
  | [] => []
  | (name, v) :: members =>
    ',' :: (spacing.gap level ++ writeString name ++ ':' :: spacing.afterColon ++
      write spacing level v ++ writeMembers spacing level members)

end

/-- A value on one line, without blanks. -/
def compact (v : Value) : String := String.ofList (v.write .none 0)

/-- A value with each item on a line of its own. -/
def pretty (v : Value) : String := String.ofList (v.write .indented 0)

end Value

end AccessGraph.Json
