import AccessGraph.Json.Scan
/-!
# Reading JSON

* `Json.nextItem`, `Json.nextKey`, `Json.readColon` : what separates the items of an array and the
  members of an object.
* `Json.closeArray` : the end of an array of which nothing more is wanted.
* `Json.readValue` : a value. Its recursion is on the number of brackets that may still be opened.
* `Json.wrongType` : the fault of a value whose type is not the expected one.
* `Json.readText` : a whole text.

Loops over items and members are bounded by `fuel`, which is more than the number of characters of
the text; each round takes at least one of them.
-/

namespace AccessGraph.Json

/-- How many brackets can be open at once. -/
def nestingLimit : Nat := 127

/-! ### Items and members -/

/-- Go on to the next item of an array: `true`, and the characters from the item on; or `false`, and
the characters after the closing bracket. -/
def nextItem (first : Bool) (cs : List Char) : Except Fault (Bool × List Char) :=
  match skipBlanks cs with
  | [] => .error (.endOfText .list)
  | c :: cs =>
    if c = ']' then .ok (false, cs)
    else if first then .ok (true, c :: cs)
    else if c = ',' then
      match skipBlanks cs with
      | [] => .error (.endOfText .value)
      | d :: cs => if d = ']' then .error .trailingComma else .ok (true, d :: cs)
    else .error .expectedItemEnd

/-- Read the name of a member. -/
def readKey : (cs : List Char) → Except Fault (Option String × List Char)
  | [] => .error (.endOfText .value)
  | c :: cs =>
    if c = '"' then do
      let (key, rest) ← readString cs
      .ok (some key, rest)
    else if c = '\x7d' then .error .trailingComma
    else .error .keyNotString

/-- Go on to the next member of an object: its name, and the characters after the name; or nothing,
and the characters after the closing brace. -/
def nextKey (first : Bool) (cs : List Char) : Except Fault (Option String × List Char) :=
  match skipBlanks cs with
  | [] => .error (.endOfText .object)
  | c :: cs =>
    if c = '\x7d' then .ok (none, cs)
    else if first then readKey (c :: cs)
    else if c = ',' then readKey (skipBlanks cs)
    else .error .expectedMemberEnd

/-- Read the colon after a name. -/
def readColon (cs : List Char) : Except Fault (List Char) :=
  match skipBlanks cs with
  | [] => .error (.endOfText .object)
  | c :: cs => if c = ':' then .ok cs else .error .expectedColon

/-- Read the end of an array. -/
def closeArray (cs : List Char) : Except Fault (List Char) :=
  match skipBlanks cs with
  | [] => .error (.endOfText .list)
  | c :: cs =>
    if c = ']' then .ok cs
    else if c = ',' ∧ (skipBlanks cs).head? = some ']' then .error .trailingComma
    else .error .trailingText

/-- Read the remaining items of an array, after those read so far, which are given last one first. -/
def readItems {α : Type} (item : List Char → Except Fault (α × List Char)) :
    (fuel : Nat) → (first : Bool) → (before : List α) → List Char → Except Fault (List α × List Char)
  | 0, _, _, _ => .error (.endOfText .list)
  | fuel + 1, first, before, cs => do
    match ← nextItem first cs with
    | (false, rest) => .ok (before.reverse, rest)
    | (true, cs) =>
      let (x, rest) ← item cs
      readItems item fuel false (x :: before) rest

/-- Read the remaining members of an object, after those read so far, which are given last one
first. -/
def readMembers {α : Type} (value : List Char → Except Fault (α × List Char)) :
    (fuel : Nat) → (first : Bool) → (before : List (String × α)) → List Char →
    Except Fault (List (String × α) × List Char)
  | 0, _, _, _ => .error (.endOfText .object)
  | fuel + 1, first, before, cs => do
    match ← nextKey first cs with
    | (none, rest) => .ok (before.reverse, rest)
    | (some key, cs) =>
      let (x, rest) ← value (← readColon cs)
      readMembers value fuel false ((key, x) :: before) rest

/-! ### Values -/

/-- Read a value in which at most `depth` brackets are open at once. -/
def readValue (fuel : Nat) (depth : Nat) (cs : List Char) : Except Fault (Value × List Char) :=
  match skipBlanks cs with
  | [] => .error (.endOfText .value)
  | c :: cs =>
    if c = '[' then
      match depth with
      | 0 => .error .tooDeep
      | depth + 1 => do
        let (items, rest) ← readItems (readValue fuel depth) fuel true [] cs
        .ok (.array items, rest)
    else if c = '\x7b' then
      match depth with
      | 0 => .error .tooDeep
      | depth + 1 => do
        let (members, rest) ← readMembers (readValue fuel depth) fuel true [] cs
        .ok (.object members, rest)
    else readScalar (c :: cs)

/-- The fault of a value, without blanks before it, that is none of the types expected. A scalar is
read to say what it is, and its own faults come first. -/
def wrongType (expected : String) (cs : List Char) : Fault :=
  if cs.head? = some '[' then .invalidType .sequence expected
  else if cs.head? = some '\x7b' then .invalidType .map expected
  else
    match readScalar cs with
    | .error fault => fault
    | .ok (v, _) => .invalidType (.ofValue v) expected

/-- Read a whole text, of which nothing but blanks may be left. The reader is given a number that is
greater than that of the characters. -/
def readText {α : Type} (read : (fuel : Nat) → List Char → Except Fault (α × List Char))
    (text : String) : Except Fault α := do
  let cs := text.toList
  let (x, rest) ← read (cs.length + 1) cs
  if (skipBlanks rest).isEmpty then .ok x else .error .trailingText

end AccessGraph.Json
