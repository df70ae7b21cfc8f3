import AccessGraph.Regex.Basic
import AccessGraph.Text.Alphanumeric
import AccessGraph.Text.Blank
import AccessGraph.Text.Digits
/-!
# Reading regular expressions

* `Regex.skipSpace` : blanks and comments, where they do not count.
* `Regex.readEscape?` : what a backslash begins.
* `Regex.readSet?` : the inside of brackets.
* `Regex.openGroup?` : what an opening parenthesis begins.
* `Regex.readBranches?` : the inside of a group.
* `Regex.ofChars?` : a whole regular expression.

Counts in braces are not read, nor anything else in braces: a brace cannot be closed where the regular
expressions come from. Loops are bounded by `fuel`, which is more than the number of characters.
-/

namespace AccessGraph.Regex

/-! ### Blanks and comments -/

/-- Skip blanks and comments, which reach up to the end of a line. -/
def skipComments : (fuel : Nat) → List Char → List Char
  | 0, cs => cs
  | fuel + 1, cs =>
    match cs.dropWhile Text.isBlank with
    | '#' :: cs => skipComments fuel (cs.dropWhile (· ≠ '\n'))
    | cs => cs

/-- Skip what does not count. -/
def skipSpace (spaced : Bool) (cs : List Char) : List Char :=
  if spaced then skipComments (cs.length + 1) cs else cs

/-- The next character that counts. The sign of a comment is skipped, but not the comment. -/
def peek (spaced : Bool) (cs : List Char) : Option Char :=
  if spaced then
    match cs.dropWhile Text.isBlank with
    | '#' :: rest => (rest.dropWhile Text.isBlank).head?.or cs.head?
    | rest => rest.head?.or cs.head?
  else cs.head?

/-! ### Escapes -/

/-- Read digits in base sixteen behind a number that has been read. -/
def readHex? (spaced : Bool) : (count : Nat) → (before : Nat) → List Char → Option (Nat × List Char)
  | 0, before, cs => some (before, cs)
  | count + 1, before, cs =>
    match skipSpace spaced cs with
    | [] => none
    | c :: cs =>
      if Text.isHexDigit c then readHex? spaced count (16 * before + Text.digitValue c) cs else none

/-- Read the code point of a character. -/
def readLiteral? (spaced isByte : Bool) (count : Nat) (cs : List Char) :
    Option (Regex × List Char) := do
  let (n, rest) ← readHex? spaced count 0 cs
  some (.literal (← Text.charOf? n) isByte, rest)

/-- The letters of controls with the characters that they stand for. -/
def controls : List (Char × Char) :=
  [('a', '\x07'), ('f', '\x0c'), ('t', '\t'), ('n', '\n'), ('r', '\r'), ('v', '\x0b')]

/-- Read an escape from behind its backslash. Categories of characters are not available. -/
def readEscape? (spaced : Bool) : List Char → Option (Regex × List Char)
  | [] => none
  | c :: cs =>
    if c = 'x' then readLiteral? spaced true 2 cs
    else if c = 'u' then readLiteral? spaced false 4 cs
    else if c = 'U' then readLiteral? spaced false 8 cs
    else if "dsw".toList.contains c then some (.oneOf (.shorthand false), cs)
    else if "DSW".toList.contains c then some (.oneOf (.shorthand true), cs)
    else if c = 'A' ∨ c = 'z' then some (.edge, cs)
    else if "bB<>".toList.contains c then some (.border, cs)
    else if c.isAlphanum then (controls.lookup c).map fun d => (.literal d false, cs)
    else if c.toNat < 0x80 then some (.literal c false, cs)
    else none

/-! ### Classes -/

/-- Read an item of a class. -/
def readItem? (spaced : Bool) : List Char → Option (CharClass × List Char)
  | [] => none
  | c :: cs =>
    if c = '\\' then
      match readEscape? spaced cs with
      | some (.literal d _, rest) => some (.literal d, rest)
      | some (.oneOf characters, rest) => some (characters, rest)
      | _ => none
    else some (.literal c, cs)

/-- Read an item of a class, or the characters from one to another, which have to be in order. -/
def readRange? (spaced : Bool) (cs : List Char) : Option (CharClass × List Char) := do
  let (first, rest) ← readItem? spaced cs
  match skipSpace spaced rest with
  | '-' :: cs =>
    if peek spaced cs = some ']' ∨ peek spaced cs = some '-' then some (first, '-' :: cs)
    else
      match first, ← readItem? spaced (skipSpace spaced cs) with
      | .literal a, (.literal b, rest) => if a ≤ b then some (.range a b, rest) else none
      | _, _ => none
  | rest => some (first, rest)

/-- The names of classes. -/
def classNames : List String :=
  ["alnum", "alpha", "ascii", "blank", "cntrl", "digit", "graph", "lower", "print", "punct", "space",
    "upper", "word", "xdigit"]

/-- Read a named class between colons, from behind its opening bracket. -/
def readNamed? : List Char → Option (CharClass × List Char)
  | ':' :: cs =>
    let negated := cs.head? = some '^'
    match (if negated then cs.tail else cs).span (· ≠ ':') with
    | (name, ':' :: ']' :: rest) =>
      if classNames.contains (String.ofList name) then some (.named negated, rest) else none
    | _ => none
  | _ => none

/-- Read minus signs, which are characters at the beginning of a class. -/
def readDashes (spaced : Bool) : (fuel : Nat) → List Char → List CharClass × List Char
  | 0, cs => ([], cs)
  | fuel + 1, cs =>
    match skipSpace spaced cs with
    | '-' :: cs =>
      let (dashes, rest) := readDashes spaced fuel cs
      (.literal '-' :: dashes, rest)
    | cs => ([], cs)

/-- Read the beginning of a class in brackets, from behind the bracket: whether it is a complement, and
the first items, among which even a closing bracket is a character. -/
def readOpening (spaced : Bool) (cs : List Char) : Bool × List CharClass × List Char :=
  let cs := skipSpace spaced cs
  let negated := cs.head? = some '^'
  let cs := skipSpace spaced (if negated then cs.tail else cs)
  if cs.head? = some ']' then (negated, [.literal ']'], cs.tail)
  else (negated, readDashes spaced (cs.length + 1) cs)

/-- The class of some items, given last one first, behind a sign that combines it with another one. -/
def joinItems (left : Option CharClass) (items : List CharClass) : CharClass :=
  let right := CharClass.ofParts items.reverse
  (left.map fun left => .combined left right).getD right

/-- Read the rest of a class in brackets, up to its closing bracket. Two equal signs combine the classes
on both sides of them. -/
def readSet? (spaced : Bool) : (fuel : Nat) → (left : Option CharClass) → (items : List CharClass) →
    List Char → Option (CharClass × List Char)
  | 0, _, _, _ => none
  | fuel + 1, left, items, cs =>
    match skipSpace spaced cs with
    | [] => none
    | c :: cs =>
      if c = ']' then some (joinItems left items, cs)
      else if c = '[' then
        match readNamed? cs with
        | some (named, rest) => readSet? spaced fuel left (named :: items) rest
        | none => do
          let (negated, opening, rest) := readOpening spaced cs
          let (inner, rest) ← readSet? spaced fuel none opening.reverse rest
          readSet? spaced fuel left (.bracketed negated inner :: items) rest
      else if (c = '&' ∨ c = '-' ∨ c = '~') ∧ cs.head? = some c then
        readSet? spaced fuel (some (joinItems left items)) [] cs.tail
      else do
        let (item, rest) ← readRange? spaced (c :: cs)
        readSet? spaced fuel left (item :: items) rest

/-- Read a class in brackets from behind its opening bracket. -/
def readClass? (spaced : Bool) (cs : List Char) : Option (Regex × List Char) := do
  let (negated, opening, rest) := readOpening spaced cs
  let (inner, rest) ← readSet? spaced (cs.length + 1) none opening.reverse rest
  some (.oneOf (.bracketed negated inner), rest)

/-! ### Groups -/

/-- The letters of flags, and the sign that resets those behind it. -/
def flagLetters : List Char := "imsUuRx-".toList

/-- Flags. Each one is known and stands there once, and the last one is not the sign. -/
def Flags.ofChars? (cs : List Char) : Option Flags :=
  if cs.all flagLetters.contains ∧ cs.eraseDups.length = cs.length ∧ cs.getLast? ≠ some '-' then
    some ⟨state? 'i', state? 'u', state? 'x'⟩
  else none
where
  /-- A flag is set or reset. -/
  state? (letter : Char) : Option Bool :=
    let (set, reset) := cs.span (· ≠ '-')
    if set.contains letter then some true
    else if reset.contains letter then some false
    else none

/-- A character of the name of a group. -/
def isNameChar (c : Char) : Bool :=
  Text.isAlphanumeric c || c = '_' || c = '.' || c = '[' || c = ']'

/-- A name of a group. It begins with a letter or an underscore. -/
def isName (name : List Char) : Bool :=
  name.all isNameChar && name.head?.any fun c => Text.isAlphabetic c || c = '_'

/-- What is known while a regular expression is read. -/
structure Reading where
  /-- Blanks and comments do not count. -/
  spaced : Bool
  /-- The names of groups so far. -/
  names : List (List Char)

/-- What an opening parenthesis begins. -/
inductive Opening where
  /-- A group with flags. -/
  | group (flags : Flags)
  /-- Flags that stand alone. -/
  | flags (flags : Flags)

/-- Read the name of a group, which has to be a new one. -/
def openNamed? (r : Reading) (cs : List Char) : Option (Opening × Reading × List Char) :=
  match cs.span (· ≠ '>') with
  | (name, '>' :: rest) =>
    if isName name ∧ name ∉ r.names then
      some (.group .unset, { r with names := name :: r.names }, rest)
    else none
  | _ => none

/-- Read the flags of a group, or flags that stand alone. -/
def openFlags? (r : Reading) (cs : List Char) : Option (Opening × Reading × List Char) := do
  let (letters, rest) := cs.span fun c => c ≠ ':' ∧ c ≠ ')'
  let f ← Flags.ofChars? letters
  let after := { r with spaced := f.spaced.getD r.spaced }
  match rest with
  | ':' :: rest => some (.group f, after, rest)
  | ')' :: rest => if letters.isEmpty then none else some (.flags f, after, rest)
  | _ => none

/-- Read the beginning of a group from behind its parenthesis. -/
def openGroup? (r : Reading) (cs : List Char) : Option (Opening × Reading × List Char) :=
  match skipSpace r.spaced cs with
  | '?' :: 'P' :: '<' :: cs => openNamed? r cs
  | '?' :: '<' :: cs => openNamed? r cs
  | '?' :: cs => openFlags? r cs
  | cs => some (.group .unset, r, cs)

/-- Repeat the last part. Flags cannot be repeated. -/
def repeatLast? : List Regex → Option (List Regex)
  | [] => none
  | .flags _ :: _ => none
  | part :: parts => some (.repetition part :: parts)

/-- Read a part that holds no others from behind its first character. -/
def readPart? (spaced : Bool) (c : Char) (cs : List Char) : Option (Regex × List Char) :=
  if c = '[' then readClass? spaced cs
  else if c = '\\' then readEscape? spaced cs
  else if c = '.' then some (.dot, cs)
  else if c = '^' ∨ c = '$' then some (.edge, cs)
  else if c = '\x7b' then none
  else some (.literal c false, cs)

/-- Read the rest of a group, up to its closing parenthesis, or up to the end. The branches and the
parts of the present branch that have been read are given last one first. -/
def readBranches? : (fuel : Nat) → Reading → (branches parts : List Regex) → List Char →
    Option (Regex × Reading × List Char)
  | 0, _, _, _, _ => none
  | fuel + 1, r, branches, parts, cs =>
    match skipSpace r.spaced cs with
    | [] => some (ofBranches (ofParts parts.reverse :: branches).reverse, r, [])
    | c :: cs =>
      if c = ')' then some (ofBranches (ofParts parts.reverse :: branches).reverse, r, c :: cs)
      else if c = '|' then readBranches? fuel r (ofParts parts.reverse :: branches) [] cs
      else if c = '(' then do
        match ← openGroup? r cs with
        | (.flags f, r, rest) => readBranches? fuel r branches (.flags f :: parts) rest
        | (.group f, inside, rest) =>
          let (inner, after, rest) ← readBranches? fuel inside [] [] rest
          match rest with
          | [] => none
          | _ :: rest =>
            let after := { after with spaced := r.spaced }
            readBranches? fuel after branches (.group f inner :: parts) rest
      else if c = '?' ∨ c = '*' ∨ c = '+' then do
        let parts ← repeatLast? parts
        readBranches? fuel r branches parts (if cs.head? = some '?' then cs.tail else cs)
      else do
        let (part, rest) ← readPart? r.spaced c cs
        readBranches? fuel r branches (part :: parts) rest

/-- A whole regular expression, if it is well formed and not nested too deep. -/
def ofChars? (cs : List Char) : Option Regex := do
  let (r, _, rest) ← readBranches? (cs.length + 1) ⟨false, []⟩ [] [] cs
  if rest.isEmpty ∧ r.nesting ≤ nestingLimit then some r else none

end AccessGraph.Regex
