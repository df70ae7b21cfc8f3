import AccessGraph.Regex.Reader
import AccessGraph.Regex.Translation
/-!
# Values of fields in log filters

The value of a field in a log filter is a number or a regular expression.

* `FieldValue.isPositive` : numbers that are no regular expressions.
* `FieldValue.Fault` : what can be wrong with a value.
* `FieldValue.fault?` : the fault of a value, if it has one.
-/

namespace AccessGraph.FieldValue

/-- What can be wrong with a value. -/
inductive Fault where
  /-- It is no regular expression, or none that can be used. -/
  | pattern
  /-- It asks for a border between words of Unicode. -/
  | border
  deriving DecidableEq, Repr

/-- The wording of a fault. -/
def Fault.message : Fault → String
  | .pattern => "error building NFA"
  | .border =>
    "unsupported regex feature for DFAs: cannot build DFAs for regexes with Unicode word " ++
      "boundaries; switch to ASCII word boundaries, or heuristically enable Unicode word " ++
      "boundaries or use a different regex engine"

/-- A number without sign, which may have a point and an exponent. -/
def isNumber (cs : List Char) : Bool :=
  let (whole, rest) := cs.span Char.isDigit
  let (part, rest) := if rest.head? = some '.' then rest.tail.span Char.isDigit else ([], rest)
  (!whole.isEmpty || !part.isEmpty) && match rest with
    | [] => true
    | e :: rest =>
      let digits := if rest.head? = some '+' ∨ rest.head? = some '-' then rest.tail else rest
      e.toLower = 'e' && !digits.isEmpty && digits.all Char.isDigit

/-- The names of numbers that have no digits. -/
def numberNames : List String := ["inf", "infinity", "nan"]

/-- A number with a plus sign. All other numbers are regular expressions, too. -/
def isPositive : List Char → Bool
  | '+' :: cs => isNumber cs || numberNames.contains (String.ofList (cs.map Char.toLower))
  | _ => false

/-- The fault of a value, if it has one. -/
def fault? (value : List Char) : Option Fault :=
  if isPositive value then none
  else
    match (Regex.ofChars? value).bind (Regex.translate .start) with
    | some setting => if setting.hasBorder then some .border else none
    | none => some .pattern

end AccessGraph.FieldValue
