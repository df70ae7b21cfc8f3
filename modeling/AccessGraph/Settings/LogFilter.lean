import AccessGraph.Settings.FieldValue
import AccessGraph.Text.Alphanumeric
import AccessGraph.Text.Blank
import AccessGraph.Text.Slice
/-!
# Log filters

A log filter says which messages are shown. It is a list of directives between commas, each of which
names a level, or a part of the program, a span in brackets, or both, with a level behind `=`.

* `LogFilter.isLevel` : the names and numbers of levels.
* `LogFilter.check` : the check of a directive.
* `LogFilter.fault?` : the first fault of a filter.

Blanks around a directive do not count where its parts are looked for. But the positions that are found
are then taken as positions in the directive with its blanks, so that blanks in front move all parts.
-/

namespace AccessGraph.LogFilter

/-- What can be wrong with a directive. -/
inductive Fault where
  /-- It does not have the form of a directive. -/
  | form
  /-- What stands behind `=` is not a level. -/
  | level
  /-- The value of a field is not fit. -/
  | value (fault : FieldValue.Fault)
  /-- A part begins or ends inside of a character. -/
  | cut
  deriving DecidableEq, Repr

/-- The names of levels. -/
def levelNames : List String := ["off", "error", "warn", "info", "debug", "trace"]

/-- The greatest number of a level. The least one is zero. -/
def lastLevel : Nat := levelNames.length - 1

/-- The wording of a fault. -/
def Fault.message : Fault → String
  | .form => "invalid filter directive"
  | .level =>
    "error parsing level filter: expected one of " ++
      ", ".intercalate (levelNames.map fun name => "\"" ++ name ++ "\"") ++ ", or a number 0-5"
  | .value fault => "invalid field filter: " ++ fault.message
  | .cut => "a part begins or ends inside of a character"

/-- A number that is written with or without a plus sign. -/
def number? (cs : List Char) : Option Nat :=
  let digits := match cs with
    | '+' :: digits => digits
    | digits => digits
  if digits ≠ [] ∧ digits.all Char.isDigit then some (Nat.ofDigitChars 10 digits 0) else none

/-- A text names a level, by a name in any case or by its number. -/
def isLevel (cs : List Char) : Bool :=
  (number? cs).any (· ≤ lastLevel) ||
    levelNames.any fun name => name.toList = cs.map Char.toLower

/-- A character that a directive can begin with, apart from a bracket. -/
def isInitial (c : Char) : Bool := Text.isAlphanumeric c || c = '-' || c = ':' || c = '_'

/-- Some condition has to hold. -/
def require (condition : Bool) (fault : Fault) : Except Fault Unit :=
  if condition then .ok () else .error fault

/-- The part of a directive between two positions. -/
def part (directive : List Char) (start stop : Nat) : Except Fault (List Char) :=
  match Text.slice? start stop directive with
  | some part => .ok part
  | none => .error .cut

/-- Check the level from a position up to the end of a directive. It may be left out. -/
def checkLevel (directive : List Char) (start : Nat) : Except Fault Unit := do
  let level ← part directive start (Text.byteLength directive)
  require (level.isEmpty || isLevel level) .level

/-- Check what stands behind the bracket that closes a span. -/
def checkTail (directive : List Char) (start : Nat) : List Char → Except Fault Unit
  | [] => .ok ()
  | c :: _ => if c = '=' then checkLevel directive (start + 1) else .error .form

/-- Check a field, which is a name that may be followed by `=` and a value. -/
def checkField (field : List Char) : Except Fault Unit :=
  match (field.splitOn '=').tail.head?.bind FieldValue.fault? with
  | some fault => .error (.value fault)
  | none => .ok ()

/-- Check a field in braces, from behind the opening one, and the end of the span around it. -/
def checkFields (directive : List Char) (start : Nat) (cs : List Char) : Except Fault Unit :=
  let (field, rest) := cs.span (· ≠ '\x7d')
  let stop := start + Text.byteLength field
  match rest with
  | [] => .error .form
  | _ :: rest => do
    let field ← part directive start stop
    require (!field.isEmpty) .form
    checkField field
    match rest with
    | ']' :: rest => checkTail directive (stop + 2) rest
    | _ => .error .form

/-- Check a span from behind its opening bracket. It may end with a field in braces. -/
def checkSpan (directive : List Char) (start : Nat) (cs : List Char) : Except Fault Unit :=
  let (name, rest) := cs.span fun c => c ≠ ']' ∧ c ≠ '\x7b'
  let stop := start + Text.byteLength name
  match rest with
  | [] => .error .form
  | c :: rest => do
    let _ ← part directive start stop
    if c = ']' then checkTail directive (stop + 1) rest else checkFields directive (stop + 1) rest

/-- A text without blanks around it. -/
def trim (cs : List Char) : List Char :=
  ((cs.dropWhile Text.isBlank).reverse.dropWhile Text.isBlank).reverse

/-- Check a directive. -/
def check (directive : List Char) : Except Fault Unit :=
  match trim directive with
  | [] => .error .form
  | '[' :: cs => checkSpan directive 1 cs
  | c :: cs => do
    require (isInitial c) .form
    let (name, rest) := (c :: cs).span fun c => c ≠ '=' ∧ c ≠ '['
    let stop := Text.byteLength name
    match rest with
    | [] => .ok ()
    | d :: rest =>
      let _ ← part directive 0 stop
      if d = '=' then checkLevel directive (stop + 1) else checkSpan directive (stop + 1) rest

/-- The first fault of a filter. Nothing between two commas is no directive. -/
def fault? (filter : String) : Option Fault :=
  match ((filter.toList.splitOn ',').filter (!·.isEmpty)).forM check with
  | .ok () => none
  | .error fault => some fault

end AccessGraph.LogFilter
