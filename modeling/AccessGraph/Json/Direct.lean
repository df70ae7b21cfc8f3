import AccessGraph.Json.Record
import AccessGraph.Json.Skip
/-!
# Reading JSON of a known form

Where the form of a text is known, its parts are decoded while it is read, and the first problem of the
text is the one that is reported.

* `Json.readNatural`, `Json.readLabel` : natural numbers of 64 bits, and strings.
* `Json.readArray` : arrays.
* `Json.readRecord` : records, as objects or as arrays. A member that names no field is skipped.
-/

namespace AccessGraph.Json

/-- Read a natural number of 64 bits. -/
def readNatural (cs : List Char) : Except Fault (Nat × List Char) := do
  match skipBlanks cs with
  | [] => .error (.endOfText .value)
  | c :: cs =>
    if c = '-' ∨ c.isDigit then
      match ← readNumber (c :: cs) with
      | (.int (.ofNat n), rest) => .ok (n, rest)
      | (.int n, _) => .error (.invalidValue (.int n) "usize")
      | (.double x, _) => .error (.invalidType (.double x) "usize")
    else .error (wrongType "usize" (c :: cs))

/-- Read a string. -/
def readLabel (cs : List Char) : Except Fault (String × List Char) :=
  match skipBlanks cs with
  | [] => .error (.endOfText .value)
  | c :: cs => if c = '"' then readString cs else .error (wrongType "a string" (c :: cs))

/-- Read an array. -/
def readArray {α : Type} (item : List Char → Except Fault (α × List Char)) (fuel : Nat)
    (cs : List Char) : Except Fault (List α × List Char) :=
  match skipBlanks cs with
  | [] => .error (.endOfText .value)
  | c :: cs =>
    if c = '[' then readItems item fuel true [] cs
    else .error (wrongType "a sequence" (c :: cs))

/-! ### Records -/

variable {σ : Type} {C : σ → Type}

/-- Read the next item of an array, if there is one. The state holds whether it is the first. -/
def nextPart (part : (s : σ) → List Char → Except Fault (C s × List Char)) (s : σ) :
    StateT (Bool × List Char) (Except Fault) (Option (C s))
  | (first, cs) => do
    match ← nextItem first cs with
    | (false, rest) => .ok (none, (false, rest))
    | (true, cs) =>
      let (x, rest) ← part s cs
      .ok (some x, (false, rest))

/-- Read the value of a member, from behind its name. -/
def memberPart (part : (s : σ) → List Char → Except Fault (C s × List Char)) (s : σ) :
    StateT (List Char) (Except Fault) (C s) :=
  fun cs => do part s (← readColon cs)

/-- Read the remaining members of a record. -/
def readFields (part : (s : σ) → List Char → Except Fault (C s × List Char))
    (fs : List (Field C)) :
    (fuel : Nat) → (first : Bool) → Slots C fs → List Char → Except Fault (Slots C fs × List Char)
  | 0, _, _, _ => .error (.endOfText .object)
  | fuel + 1, first, slots, cs => do
    match ← nextKey first cs with
    | (none, rest) => .ok (slots, rest)
    | (some name, cs) =>
      if fs.any (·.name = name) then
        let (slots, rest) ← Slots.put name (memberPart part) fs slots cs
        readFields part fs fuel false slots rest
      else
        let rest ← skipValue (fuel + 1) (← readColon cs)
        readFields part fs fuel false slots rest

/-- Read a record, called `title` in messages. -/
def readRecord (part : (s : σ) → List Char → Except Fault (C s × List Char)) (title : String)
    (fs : List (Field C)) (fuel : Nat) (cs : List Char) :
    Except Fault (Record C fs × List Char) :=
  match skipBlanks cs with
  | [] => .error (.endOfText .value)
  | c :: cs =>
    if c = '[' then do
      let expected := title ++ " with " ++ elements fs.length
      let (record, (_, rest)) ← Record.fromItems (nextPart part) expected fs 0 (true, cs)
      .ok (record, ← closeArray rest)
    else if c = '\x7b' then do
      let (slots, rest) ← readFields part fs fuel true (Slots.empty fs) cs
      .ok (← Slots.close fs slots, rest)
    else .error (wrongType title (c :: cs))

end AccessGraph.Json
