import AccessGraph.Toml.Scalar
/-!
# Reading TOML

* `Toml.readString` : strings in their four forms.
* `Toml.readKey` : keys, bare, quoted or dotted.
* `Toml.readValue` : values, by recursion on the number of brackets that may still be opened.
* `Toml.ofText?` : the entries of a document, if it is one.

Loops are bounded by `fuel`, which is more than the number of characters of the document.
-/

namespace AccessGraph.Toml

/-- How many brackets can be open at once, and how many parts a key can have. -/
def nestingLimit : Nat := 79

/-! ### Blanks and comments -/

/-- Skip spaces and tabulators. -/
def skipSpaces (cs : List Char) : List Char := cs.dropWhile fun c => c = ' ' || c = '\t'

/-- A character that may stand in a comment. -/
def isVisible (c : Char) : Bool := c = '\t' || (0x20 ≤ c.toNat && c.toNat ≠ 0x7f)

/-- Skip a comment, if there is one. -/
def skipComment : List Char → List Char
  | '#' :: cs => cs.dropWhile isVisible
  | cs => cs

/-- Skip the end of a line. -/
def skipNewline? : List Char → Option (List Char)
  | '\n' :: cs => some cs
  | '\r' :: '\n' :: cs => some cs
  | _ => none

/-- Skip the rest of a line on which nothing but a comment is left, up to the next line. -/
def endLine? (cs : List Char) : Option (List Char) :=
  match skipComment (skipSpaces cs) with
  | [] => some []
  | cs => skipNewline? cs

/-- Skip blanks, comments and ends of lines. -/
def skipLines : (fuel : Nat) → List Char → List Char
  | 0, cs => cs
  | fuel + 1, cs =>
    let rest := skipComment (skipSpaces cs)
    match skipNewline? rest with
    | some rest => skipLines fuel rest
    | none => rest

/-! ### Strings -/

/-- Read an escape, from behind its backslash. -/
def readEscape? : List Char → Option (Char × List Char)
  | 'b' :: cs => some ('\x08', cs)
  | 't' :: cs => some ('\t', cs)
  | 'n' :: cs => some ('\n', cs)
  | 'f' :: cs => some ('\x0c', cs)
  | 'r' :: cs => some ('\r', cs)
  | '"' :: cs => some ('"', cs)
  | '\\' :: cs => some ('\\', cs)
  | 'u' :: cs => Text.readCodePoint? 4 cs
  | 'U' :: cs => Text.readCodePoint? 8 cs
  | _ => none

/-- Read a string on one line from behind its opening quote. Only a string in double quotes has
escapes. -/
def readLine? (quote : Char) : (fuel : Nat) → (before : List Char) → List Char →
    Option (String × List Char)
  | 0, _, _ => none
  | _ + 1, _, [] => none
  | fuel + 1, before, c :: cs =>
    if c = quote then some (String.ofList before.reverse, cs)
    else if c = '\\' ∧ quote = '"' then do
      let (d, rest) ← readEscape? cs
      readLine? quote fuel (d :: before) rest
    else if isVisible c then readLine? quote fuel (c :: before) cs
    else none

/-- Skip the blanks and ends of lines behind a backslash that ends a line. -/
def skipFold? (fuel : Nat) (cs : List Char) : Option (List Char) := do
  let rest ← skipNewline? (skipSpaces cs)
  some (blankLines fuel rest)
where
  /-- Skip blanks and ends of lines. -/
  blankLines : (fuel : Nat) → List Char → List Char
    | 0, cs => cs
    | fuel + 1, cs =>
      match skipNewline? (skipSpaces cs) with
      | some rest => blankLines fuel rest
      | none => skipSpaces cs

/-- Read a string on several lines from behind its opening quotes. Up to two quotes may stand inside,
also right before the closing ones. -/
def readLines? (quote : Char) : (fuel : Nat) → (before : List Char) → List Char →
    Option (String × List Char)
  | 0, _, _ => none
  | _ + 1, _, [] => none
  | fuel + 1, before, c :: cs =>
    if c = quote then
      let quotes := ((c :: cs).takeWhile (· = quote)).length
      let rest := (c :: cs).dropWhile (· = quote)
      if quotes < 3 then readLines? quote fuel (List.replicate quotes quote ++ before) rest
      else if quotes ≤ 5 then
        some (String.ofList (before.reverse ++ List.replicate (quotes - 3) quote), rest)
      else none
    else if c = '\\' ∧ quote = '"' then
      match skipFold? fuel cs with
      | some rest => readLines? quote fuel before rest
      | none => do
        let (d, rest) ← readEscape? cs
        readLines? quote fuel (d :: before) rest
    else
      match skipNewline? (c :: cs) with
      | some rest => readLines? quote fuel ('\n' :: before) rest
      | none => if isVisible c then readLines? quote fuel (c :: before) cs else none

/-- Read a string. -/
def readString? (fuel : Nat) : List Char → Option (String × List Char)
  | a :: b :: c :: cs =>
    if a ≠ '"' ∧ a ≠ '\x27' then none
    else if a = b ∧ b = c then readLines? a fuel [] ((skipNewline? cs).getD cs)
    else readLine? a fuel [] (b :: c :: cs)
  | [a, b] => if (a = '"' ∨ a = '\x27') ∧ a = b then some ("", []) else none
  | _ => none

/-! ### Keys -/

/-- A character of a bare key. -/
def isBare (c : Char) : Bool := c.isAlphanum || c = '_' || c = '-'

/-- Read one part of a key. -/
def readPart? (fuel : Nat) : List Char → Option (String × List Char)
  | [] => none
  | c :: cs =>
    if c = '"' ∨ c = '\x27' then readLine? c fuel [] cs
    else if isBare c then
      some (String.ofList ((c :: cs).takeWhile isBare), (c :: cs).dropWhile isBare)
    else none

/-- Read the parts of a key, which are separated by dots, and the blanks after the last one. -/
def readParts? : (fuel : Nat) → List Char → Option (List String × List Char)
  | 0, _ => none
  | fuel + 1, cs => do
    let (part, rest) ← readPart? fuel (skipSpaces cs)
    match skipSpaces rest with
    | '.' :: rest => do
      let (parts, rest) ← readParts? fuel rest
      some (part :: parts, rest)
    | rest => some ([part], rest)

/-- Read a key, and the blanks after it. -/
def readKey? (fuel : Nat) (cs : List Char) : Option (List String × List Char) := do
  let (parts, rest) ← readParts? fuel cs
  if parts.length ≤ nestingLimit then some (parts, rest) else none

/-! ### Values -/

/-- A character of a bare word. -/
def isWord (c : Char) : Bool := c.isAlphanum || c = '_' || c = '-' || c = '+' || c = '.' || c = ':'

/-- Read a bare word. A date may be followed by a space and a time. -/
def readWord? (cs : List Char) : Option (Value × List Char) :=
  let word := cs.takeWhile isWord
  let rest := cs.dropWhile isWord
  let isDate := date? word = some []
  match rest with
  | ' ' :: more =>
    let time := more.takeWhile isWord
    if isDate ∧ (time.head?.map Char.isDigit).getD false then do
      some (← scalar? (word ++ ' ' :: time), more.dropWhile isWord)
    else do some (← scalar? word, rest)
  | rest => do some (← scalar? word, rest)

/-- Read the remaining items of an array, after those read so far, which are given last one first. -/
def readItems? (value : List Char → Option (Value × List Char)) :
    (fuel : Nat) → (before : List Value) → List Char → Option (List Value × List Char)
  | 0, _, _ => none
  | fuel + 1, before, cs =>
    match skipLines fuel cs with
    | ']' :: rest => some (before.reverse, rest)
    | cs => do
      let (v, rest) ← value cs
      match skipLines fuel rest with
      | ',' :: rest => readItems? value fuel (v :: before) rest
      | ']' :: rest => some ((v :: before).reverse, rest)
      | _ => none

/-- Read a pair, up to the end of its value. -/
def readPair? (value : List Char → Option (Value × List Char)) (fuel : Nat) (cs : List Char) :
    Option ((List String × Value) × List Char) := do
  let (path, rest) ← readKey? fuel cs
  match rest with
  | '=' :: rest => do
    let (v, rest) ← value (skipSpaces rest)
    some ((path, v), rest)
  | _ => none

/-- Read the remaining pairs of a table between braces into the entries read so far. -/
def readPairs? (value : List Char → Option (Value × List Char)) :
    (fuel : Nat) → Entries → List Char → Option (Entries × List Char)
  | 0, _, _ => none
  | fuel + 1, entries, cs => do
    let ((path, v), rest) ← readPair? value fuel cs
    let entries ← put false false entries path v
    match skipSpaces rest with
    | ',' :: rest => readPairs? value fuel entries rest
    | '\x7d' :: rest => some (entries, rest)
    | _ => none

/-- Read a value in which at most `depth` brackets are open at once. -/
def readValue? (fuel : Nat) (depth : Nat) (cs : List Char) : Option (Value × List Char) :=
  match cs with
  | [] => none
  | c :: rest =>
    if c = '"' ∨ c = '\x27' then do
      let (s, rest) ← readString? fuel (c :: rest)
      some (.string s, rest)
    else if c = '[' then
      match depth with
      | 0 => none
      | depth + 1 => do
        let (items, rest) ← readItems? (readValue? fuel depth) fuel [] rest
        some (.array items, rest)
    else if c = '\x7b' then
      match depth with
      | 0 => none
      | depth + 1 =>
        match skipSpaces rest with
        | '\x7d' :: rest => some (.table .braces [], rest)
        | rest => do
          let (entries, rest) ← readPairs? (readValue? fuel depth) fuel [] rest
          some (.table .braces entries, rest)
    else readWord? (c :: rest)

/-! ### Documents -/

/-- Read the remaining lines of a document, below the last header, into the entries read so far. -/
def readDocument? : (fuel : Nat) → (header : List String) → Entries → List Char → Option Entries
  | 0, _, _, _ => none
  | fuel + 1, header, entries, cs =>
    match skipSpaces cs with
    | [] => some entries
    | '[' :: '[' :: rest => do
      let (path, rest) ← readKey? fuel rest
      match rest with
      | ']' :: ']' :: rest => do
        readDocument? fuel path (← openItem entries path) (← endLine? rest)
      | _ => none
    | '[' :: rest => do
      let (path, rest) ← readKey? fuel rest
      match rest with
      | ']' :: rest => do
        readDocument? fuel path (← openTable entries path) (← endLine? rest)
      | _ => none
    | c :: rest =>
      if c = '#' ∨ c = '\n' ∨ c = '\r' then do
        readDocument? fuel header entries (← endLine? (c :: rest))
      else do
        let ((path, v), rest) ← readPair? (readValue? fuel nestingLimit) fuel (c :: rest)
        readDocument? fuel header (← putUnder entries header path v) (← endLine? rest)

/-- The entries of a document. A byte order mark in front is ignored. -/
def ofText? (text : String) : Option Entries :=
  let cs := match text.toList with
    | '\ufeff' :: cs => cs
    | cs => cs
  readDocument? (cs.length + 2) [] [] cs

end AccessGraph.Toml
