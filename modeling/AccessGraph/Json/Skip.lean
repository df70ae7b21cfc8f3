import AccessGraph.Json.Reader
/-!
# Skipping JSON

The value of a member that nobody asks for is only looked over: it may be nested to any depth, its
numbers may be too large and its surrogates unpaired. What is wrong with its syntax is still found.

* `Json.skipString`, `Json.skipNumber` : strings and numbers.
* `Json.skipValue` : a value, with the brackets around the current place in a list.
-/

namespace AccessGraph.Json

/-! ### Scalars -/

/-- Skip an escape, from behind its backslash. -/
def skipEscape : (cs : List Char) → Except Fault (List Char)
  | [] => .error (.endOfText .string)
  | c :: cs =>
    if c = 'u' then do
      let (_, rest) ← readQuad cs
      .ok rest
    else if (letterEscape? c).isSome then .ok cs
    else .error .invalidEscape

theorem length_lt_of_skipEscape {cs rest : List Char} (h : skipEscape cs = .ok rest) :
    rest.length < cs.length := by
  unfold skipEscape at h
  split at h
  · cases h
  · rename_i c cs
    split at h
    · cases hq : readQuad cs with
      | error f => simp [hq, bind, Except.bind] at h
      | ok p =>
        have := length_lt_of_readQuad hq
        simp only [hq, bind, Except.bind, Except.ok.injEq] at h
        simp only [← h, List.length_cons]
        omega
    · split at h
      · simp only [Except.ok.injEq] at h
        simp [h]
      · cases h

/-- Skip a string from behind its opening quote. -/
def skipString (cs : List Char) : Except Fault (List Char) :=
  match cs with
  | [] => .error (.endOfText .string)
  | c :: cs =>
    if c = '"' then .ok cs
    else if c = '\\' then
      match _h : skipEscape cs with
      | .error fault => .error fault
      | .ok rest => skipString rest
    else if c.toNat < 0x20 then .error .controlCharacter
    else skipString cs
termination_by cs.length
decreasing_by
  · have := length_lt_of_skipEscape _h
    simp only [List.length_cons]
    omega
  · simp

/-- Skip digits, at least one. -/
def skipDigits (cs : List Char) : Except Fault (List Char) :=
  if (cs.head?.map Char.isDigit).getD false then .ok (cs.dropWhile Char.isDigit)
  else .error .invalidNumber

/-- Skip the digits before the point. A zero in front has to be the only one. -/
def skipWhole (cs : List Char) : Except Fault (List Char) := do
  let rest ← skipDigits cs
  if cs.head? = some '0' ∧ rest.length + 1 < cs.length then .error .invalidNumber else .ok rest

/-- Skip a point with the digits after it, if there is a point. -/
def skipFraction : (cs : List Char) → Except Fault (List Char)
  | '.' :: cs => skipDigits cs
  | cs => .ok cs

/-- Skip an exponent, if there is one. -/
def skipExponent : (cs : List Char) → Except Fault (List Char)
  | [] => .ok []
  | c :: cs => if c = 'e' ∨ c = 'E' then skipDigits (readSign cs).2 else .ok (c :: cs)

/-- Skip a number from behind its sign. -/
def skipNumber (cs : List Char) : Except Fault (List Char) := do
  skipExponent (← skipFraction (← skipWhole cs))

/-- Skip a value that is neither an array nor an object, without blanks before it. -/
def skipScalar : (cs : List Char) → Except Fault (List Char)
  | [] => .error (.endOfText .value)
  | c :: cs =>
    if c = 'n' then readWord "ull".toList cs
    else if c = 't' then readWord "rue".toList cs
    else if c = 'f' then readWord "alse".toList cs
    else if c = '"' then skipString cs
    else if c = '-' then skipNumber cs
    else if c.isDigit then skipNumber (c :: cs)
    else .error .expectedValue

/-! ### Values -/

/-- A bracket that is open. -/
inductive Bracket where
  | square
  | curly
  deriving DecidableEq, Repr

namespace Bracket

/-- The character that closes a bracket. -/
def closing : Bracket → Char
  | square => ']'
  | curly => '\x7d'

/-- The fault of a text that ends inside a bracket. -/
def ended : Bracket → Fault
  | square => .endOfText .list
  | curly => .endOfText .object

/-- The fault of two items without a comma between them. -/
def unseparated : Bracket → Fault
  | square => .expectedItemEnd
  | curly => .expectedMemberEnd

end Bracket

/-- Skip what stands before the value of the next item: in an object, its name and the colon. -/
def skipName (inside : Bracket) (cs : List Char) : Except Fault (List Char) :=
  match inside with
  | .square => .ok cs
  | .curly =>
    match skipBlanks cs with
    | [] => .error (.endOfText .object)
    | c :: cs => if c = '"' then do readColon (← skipString cs) else .error .keyNotString

/-- What is expected next. -/
inductive Expecting where
  /-- A value. -/
  | value
  /-- The first item inside a bracket, or its end. -/
  | first
  /-- A comma or the end of a bracket. -/
  | next
  deriving DecidableEq, Repr

/-- Skip up to the end of the outermost value, inside the given brackets, the innermost first. -/
def skipRest : (fuel : Nat) → Expecting → List Bracket → List Char → Except Fault (List Char)
  | _, .next, [], cs => .ok cs
  | 0, _, _, _ => .error (.endOfText .value)
  | fuel + 1, .next, inside :: outer, cs =>
    match skipBlanks cs with
    | [] => .error inside.ended
    | c :: cs =>
      if c = ',' then do skipRest fuel .value (inside :: outer) (← skipName inside cs)
      else if c = inside.closing then skipRest fuel .next outer cs
      else .error inside.unseparated
  | fuel + 1, .first, [], cs => skipRest fuel .value [] cs
  | fuel + 1, .first, inside :: outer, cs =>
    match skipBlanks cs with
    | [] => .error inside.ended
    | c :: cs =>
      if c = inside.closing then skipRest fuel .next outer cs
      else do skipRest fuel .value (inside :: outer) (← skipName inside (c :: cs))
  | fuel + 1, .value, brackets, cs =>
    match skipBlanks cs with
    | [] => .error (.endOfText .value)
    | c :: cs =>
      if c = '[' then skipRest fuel .first (.square :: brackets) cs
      else if c = '\x7b' then skipRest fuel .first (.curly :: brackets) cs
      else do skipRest fuel .next brackets (← skipScalar (c :: cs))

/-- Skip a value. -/
def skipValue (fuel : Nat) (cs : List Char) : Except Fault (List Char) :=
  skipRest (2 * fuel + 1) .value [] cs

end AccessGraph.Json
