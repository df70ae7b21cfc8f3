import AccessGraph.Json.Fault
/-!
# The words of JSON

A reader takes something off the front of the characters of a text and returns it together with the
characters that are left.

* `Json.skipBlanks`, `Json.readWord` : blanks, and the letters of a fixed word.
* `Json.readNumber` : numbers. One without fraction and exponent is an integer if it fits into 64
  bits, signed or unsigned; every other one is a double, `-0` among them.
* `Json.readString` : strings, from behind the opening quote; `Json.readEscape` reads one escape.
* `Json.readScalar` : values other than arrays and objects.
-/

namespace AccessGraph.Json

/-- Blanks are spaces, tabulators, line feeds and carriage returns. -/
def isBlank (c : Char) : Bool := c = ' ' || c = '\t' || c = '\n' || c = '\r'

/-- The characters from the first one on that is no blank. -/
def skipBlanks (cs : List Char) : List Char := cs.dropWhile isBlank

/-- Read the letters of a word. -/
def readWord : (word : List Char) → List Char → Except Fault (List Char)
  | [], cs => .ok cs
  | _ :: _, [] => .error (.endOfText .value)
  | w :: word, c :: cs => if c = w then readWord word cs else .error .expectedWord

/-! ### Numbers -/

/-- The number that decimal digits stand for. -/
def ofDigits (digits : List Char) : Nat := Nat.ofDigitChars 10 digits 0

/-- Read digits, at least one; `none` stands for the end of the text. -/
def readDigits : (cs : List Char) → Except Fault (List Char × List Char)
  | [] => .error (.endOfText .value)
  | c :: cs =>
    if c.isDigit then .ok ((c :: cs).takeWhile Char.isDigit, (c :: cs).dropWhile Char.isDigit)
    else .error .invalidNumber

/-- Read the digits before the point. A zero in front has to be the only one. -/
def readWhole (cs : List Char) : Except Fault (List Char × List Char) := do
  let (digits, rest) ← readDigits cs
  if digits.head? = some '0' ∧ 1 < digits.length then .error .invalidNumber else .ok (digits, rest)

/-- Read a point with the digits after it, if there is a point. -/
def readFraction : (cs : List Char) → Except Fault (Option (List Char) × List Char)
  | '.' :: cs => do
    let (digits, rest) ← readDigits cs
    .ok (some digits, rest)
  | cs => .ok (none, cs)

/-- Read the sign of an exponent, if it has one. -/
def readSign : (cs : List Char) → Bool × List Char
  | '-' :: cs => (true, cs)
  | '+' :: cs => (false, cs)
  | cs => (false, cs)

/-- Read an exponent, if there is one. -/
def readExponent : (cs : List Char) → Except Fault (Option Int × List Char)
  | [] => .ok (none, [])
  | c :: cs =>
    if c = 'e' ∨ c = 'E' then do
      let (negative, cs) := readSign cs
      let (digits, rest) ← readDigits cs
      let exponent : Int := ofDigits digits
      .ok (some (if negative then -exponent else exponent), rest)
    else .ok (none, c :: cs)

/-- Put digits behind a number as long as it fits into 64 bits, and return it with the digits that are
left. -/
def collect (n : Nat) : (digits : List Char) → Nat × List Char
  | [] => (n, [])
  | c :: digits =>
    let next := n * 10 + (c.toNat - '0'.toNat)
    if next < UInt64.size then collect next digits else (n, c :: digits)

/-- The number that a double is computed from. Digits that do not fit into 64 bits are left out, but
those of them that stand before the point count for its exponent. -/
def decimal (whole fraction : List Char) (exponent : Int) : Decimal :=
  let (n, omitted) := collect 0 whole
  let (n, unused) := collect n fraction
  ⟨n, exponent + omitted.length - (fraction.length - unused.length)⟩

/-- A double, unless it is too large. -/
def double (negative : Bool) (d : Decimal) : Except Fault Number :=
  match d.scaled? with
  | some x => .ok (.double (if negative then -x else x))
  | none => .error .numberOutOfRange

/-- A number without fraction and exponent. -/
def integer (negative : Bool) (digits : List Char) : Except Fault Number :=
  let n := ofDigits digits
  if negative then
    if 0 < n ∧ n ≤ Int64.size / 2 then .ok (.int (-n)) else double true (decimal digits [] 0)
  else if n < UInt64.size then .ok (.int n)
  else double false (decimal digits [] 0)

/-- Read a number from behind its sign. -/
def readUnsigned (negative : Bool) (cs : List Char) : Except Fault (Number × List Char) := do
  let (whole, cs) ← readWhole cs
  let (fraction, cs) ← readFraction cs
  let (exponent, cs) ← readExponent cs
  let number ←
    if fraction.isNone ∧ exponent.isNone then integer negative whole
    else double negative (decimal whole (fraction.getD []) (exponent.getD 0))
  .ok (number, cs)

/-- Read a number. -/
def readNumber : (cs : List Char) → Except Fault (Number × List Char)
  | '-' :: cs => readUnsigned true cs
  | cs => readUnsigned false cs

/-! ### Strings -/

/-- The value of a hexadecimal digit. -/
def hexValue? (c : Char) : Option Nat :=
  if c.isDigit then some (c.toNat - '0'.toNat)
  else if 'a' ≤ c ∧ c ≤ 'f' then some (c.toNat - 'a'.toNat + 10)
  else if 'A' ≤ c ∧ c ≤ 'F' then some (c.toNat - 'A'.toNat + 10)
  else none

/-- Why four hexadecimal digits cannot be read: the text counts as ended if fewer than four bytes
are left of it. -/
def quadFault (cs : List Char) : Fault :=
  if (String.ofList cs).utf8ByteSize < 4 then .endOfText .string else .invalidEscape

/-- Read four hexadecimal digits. -/
def readQuad (cs : List Char) : Except Fault (Nat × List Char) :=
  match cs with
  | a :: b :: c :: d :: rest =>
    match hexValue? a, hexValue? b, hexValue? c, hexValue? d with
    | some a, some b, some c, some d => .ok (((a * 16 + b) * 16 + c) * 16 + d, rest)
    | _, _, _, _ => .error (quadFault cs)
  | _ => .error (quadFault cs)

/-- The first half of a surrogate pair. -/
def isLeading (n : Nat) : Bool := 0xd800 ≤ n ∧ n < 0xdc00

/-- The second half of a surrogate pair. -/
def isTrailing (n : Nat) : Bool := 0xdc00 ≤ n ∧ n < 0xe000

/-- Read the second half of a surrogate pair, an escape of its own. -/
def readTrailing : (cs : List Char) → Except Fault (Nat × List Char)
  | [] => .error (.endOfText .string)
  | '\\' :: [] => .error (.endOfText .string)
  | '\\' :: 'u' :: cs => do
    let (n, rest) ← readQuad cs
    if isTrailing n then .ok (n, rest) else .error .loneSurrogate
  | _ => .error .halfPair

/-- Read an escape by code point, from behind its letter. -/
def readCodePoint (cs : List Char) : Except Fault (Char × List Char) := do
  let (n, cs) ← readQuad cs
  if isTrailing n then .error .loneSurrogate
  else if isLeading n then do
    let (m, cs) ← readTrailing cs
    .ok (Char.ofNat ((n - 0xd800) * 0x400 + (m - 0xdc00) + 0x10000), cs)
  else .ok (Char.ofNat n, cs)

/-- The character that an escape of one letter stands for. -/
def letterEscape? (c : Char) : Option Char :=
  if c = '"' ∨ c = '\\' ∨ c = '/' then some c
  else if c = 'b' then some '\x08'
  else if c = 'f' then some '\x0c'
  else if c = 'n' then some '\n'
  else if c = 'r' then some '\r'
  else if c = 't' then some '\t'
  else none

/-- Read an escape, from behind its backslash. -/
def readEscape : (cs : List Char) → Except Fault (Char × List Char)
  | [] => .error (.endOfText .string)
  | c :: cs =>
    if c = 'u' then readCodePoint cs
    else
      match letterEscape? c with
      | some c => .ok (c, cs)
      | none => .error .invalidEscape

theorem length_lt_of_readQuad {cs : List Char} {n : Nat} {rest : List Char}
    (h : readQuad cs = .ok (n, rest)) : rest.length < cs.length := by
  unfold readQuad at h
  split at h
  · split at h
    · simp only [Except.ok.injEq, Prod.mk.injEq] at h
      simp only [← h.2, List.length_cons]
      omega
    · cases h
  · cases h

theorem length_lt_of_readTrailing {cs : List Char} {n : Nat} {rest : List Char}
    (h : readTrailing cs = .ok (n, rest)) : rest.length < cs.length := by
  unfold readTrailing at h
  split at h
  · cases h
  · cases h
  · rename_i cs
    cases hq : readQuad cs with
    | error f => simp [hq, bind, Except.bind] at h
    | ok p =>
      have := length_lt_of_readQuad hq
      simp only [hq, bind, Except.bind] at h
      split at h
      · simp only [Except.ok.injEq, Prod.mk.injEq] at h
        simp only [← h.2, List.length_cons]
        omega
      · cases h
  · cases h

theorem length_lt_of_readCodePoint {cs : List Char} {c : Char} {rest : List Char}
    (h : readCodePoint cs = .ok (c, rest)) : rest.length < cs.length := by
  unfold readCodePoint at h
  cases hq : readQuad cs with
  | error f => simp [hq, bind, Except.bind] at h
  | ok p =>
    have hlt := length_lt_of_readQuad hq
    simp only [hq, bind, Except.bind] at h
    split at h
    · cases h
    · split at h
      · cases ht : readTrailing p.2 with
        | error f => simp [ht] at h
        | ok q =>
          have := length_lt_of_readTrailing ht
          simp only [ht, Except.ok.injEq, Prod.mk.injEq] at h
          rw [← h.2]
          omega
      · simp only [Except.ok.injEq, Prod.mk.injEq] at h
        rwa [← h.2]

theorem length_lt_of_readEscape {cs : List Char} {c : Char} {rest : List Char}
    (h : readEscape cs = .ok (c, rest)) : rest.length < cs.length := by
  unfold readEscape at h
  split at h
  · cases h
  · split at h
    · have := length_lt_of_readCodePoint h
      simp only [List.length_cons]
      omega
    · split at h
      · simp only [Except.ok.injEq, Prod.mk.injEq] at h
        simp [← h.2]
      · cases h

/-- Read the characters of a string from behind its opening quote on, after those read so far, which
are given last one first. -/
def readCharacters (before : List Char) (cs : List Char) : Except Fault (String × List Char) :=
  match cs with
  | [] => .error (.endOfText .string)
  | c :: cs =>
    if c = '"' then .ok (String.ofList before.reverse, cs)
    else if c = '\\' then
      match _h : readEscape cs with
      | .error fault => .error fault
      | .ok (d, rest) => readCharacters (d :: before) rest
    else if c.toNat < 0x20 then .error .controlCharacter
    else readCharacters (c :: before) cs
termination_by cs.length
decreasing_by
  · have := length_lt_of_readEscape _h
    simp only [List.length_cons]
    omega
  · simp

/-- Read a string from behind its opening quote. -/
def readString (cs : List Char) : Except Fault (String × List Char) := readCharacters [] cs

/-! ### Scalars -/

/-- Read a value that is neither an array nor an object, without blanks before it. -/
def readScalar : (cs : List Char) → Except Fault (Value × List Char)
  | [] => .error (.endOfText .value)
  | c :: cs =>
    if c = 'n' then do
      let rest ← readWord "ull".toList cs
      .ok (.null, rest)
    else if c = 't' then do
      let rest ← readWord "rue".toList cs
      .ok (.bool true, rest)
    else if c = 'f' then do
      let rest ← readWord "alse".toList cs
      .ok (.bool false, rest)
    else if c = '"' then do
      let (s, rest) ← readString cs
      .ok (.string s, rest)
    else if c = '-' ∨ c.isDigit then do
      let (n, rest) ← readNumber (c :: cs)
      .ok (.number n, rest)
    else .error .expectedValue

end AccessGraph.Json
