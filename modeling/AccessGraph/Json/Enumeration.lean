import AccessGraph.Json.Reader
/-!
# Names out of a fixed list

A value of an enumeration is written as its name, or as an object whose only member has that name and
the value `null`.

* `Json.Enumeration.ofValue` : the value named by a value read before.
* `Json.Enumeration.read` : the value named at the front of a text.
-/

namespace AccessGraph.Json.Enumeration

variable {α : Type}

/-- The value of a name. -/
def named (names : List (String × α)) (name : String) : Except Fault α :=
  match names.find? (·.1 = name) with
  | some (_, x) => .ok x
  | none => .error (.unknownVariant name (names.map (·.1)))

/-- Nothing comes with the name: `null`, or an object without members. -/
def checkUnit : Value → Except Fault Unit
  | .null => .ok ()
  | .object [] => .ok ()
  | v => .error (.invalidType (.ofValue v) "unit")

/-- The value that a value read before names. -/
def ofValue (names : List (String × α)) : Value → Except Fault α
  | .string name => named names name
  | .object [(name, v)] => do
    let x ← named names name
    checkUnit v
    .ok x
  | .object _ => .error (.invalidValue .map "map with a single key")
  | v => .error (.invalidType (.ofValue v) "string or map")

/-- Read a name from behind its opening quote. -/
def readName (names : List (String × α)) (cs : List Char) : Except Fault (α × List Char) := do
  let (name, rest) ← readString cs
  .ok (← named names name, rest)

/-- Read the name of the only member of an object, from behind the opening brace. -/
def readMemberName (names : List (String × α)) (cs : List Char) : Except Fault (α × List Char) :=
  match skipBlanks cs with
  | [] => .error (.endOfText .object)
  | c :: cs =>
    if c = '"' then readName names cs
    else if c = '\x7d' then .error .expectedValue
    else .error .keyNotString

/-- Read `null`. -/
def readUnit (cs : List Char) : Except Fault (List Char) :=
  match skipBlanks cs with
  | [] => .error (.endOfText .value)
  | c :: cs => if c = 'n' then readWord "ull".toList cs else .error (wrongType "unit" (c :: cs))

/-- Read the value that the front of a text names. -/
def read (names : List (String × α)) (cs : List Char) : Except Fault (α × List Char) :=
  match skipBlanks cs with
  | [] => .error (.endOfText .value)
  | c :: cs =>
    if c = '"' then readName names cs
    else if c = '\x7b' then do
      let (x, cs) ← readMemberName names cs
      let cs ← readUnit (← readColon cs)
      match skipBlanks cs with
      | [] => .error (.endOfText .object)
      | d :: rest => if d = '\x7d' then .ok (x, rest) else .error .expectedValue
    else .error .expectedValue

end AccessGraph.Json.Enumeration
