import AccessGraph.Decimal.Double
import AccessGraph.Text.Digits
import AccessGraph.Toml.Value
/-!
# Numbers and dates in TOML

A bare word is a Boolean, a number or a moment in time; `Toml.scalar?` tells which.

* `Toml.ungroup?` : digits with single underscores between them.
* `Toml.integer?`, `Toml.float?` : numbers.
* `Toml.isMoment` : dates, times, or both, with or without an offset.
-/

namespace AccessGraph.Toml

/-- The digits of a number, which may be grouped by single underscores between digits. -/
def ungroup? (isDigit : Char → Bool) : List Char → Option (List Char)
  | [] => none
  | [c] => if isDigit c then some [c] else none
  | c :: '_' :: cs => do if isDigit c then some (c :: (← ungroup? isDigit cs)) else none
  | c :: cs => do if isDigit c then some (c :: (← ungroup? isDigit cs)) else none

/-- Take the sign off a number. -/
def splitSign : List Char → Bool × List Char
  | '-' :: cs => (true, cs)
  | '+' :: cs => (false, cs)
  | cs => (false, cs)

/-- Digits in base ten, without zeros in front. -/
def whole? (cs : List Char) : Option (List Char) := do
  let digits ← ungroup? Char.isDigit cs
  if digits.head? = some '0' ∧ cs ≠ ['0'] then none else some digits

/-- An integer of 64 bits. -/
def inRange? (n : Int) : Option Int :=
  if Int64.minValue.toInt ≤ n ∧ n ≤ Int64.maxValue.toInt then some n else none

/-- An integer in a base other than ten. -/
def based? (base : Nat) (isDigit : Char → Bool) (cs : List Char) : Option Int := do
  inRange? (Text.ofDigits base (← ungroup? isDigit cs))

/-- An integer. -/
def integer? : List Char → Option Int
  | '0' :: 'x' :: cs => based? 16 Text.isHexDigit cs
  | '0' :: 'o' :: cs => based? 8 (fun c => '0' ≤ c && c ≤ '7') cs
  | '0' :: 'b' :: cs => based? 2 (fun c => c = '0' || c = '1') cs
  | cs => do
    let (negative, cs) := splitSign cs
    let n : Int := Text.ofDigits 10 (← whole? cs)
    inRange? (if negative then -n else n)

/-- An exponent. -/
def exponent? (cs : List Char) : Option Int := do
  let (negative, cs) := splitSign cs
  let n : Int := Text.ofDigits 10 (← ungroup? Char.isDigit cs)
  some (if negative then -n else n)

/-- Infinity, with a sign. -/
def infinity (negative : Bool) : Float := if negative then -1.0 / 0.0 else 1.0 / 0.0

/-- A double. One that is too large is infinite, which is refused of positive ones. -/
def float? (cs : List Char) : Option Float := do
  let (negative, cs) := splitSign cs
  if cs = "inf".toList then some (infinity negative)
  else if cs = "nan".toList then some (0.0 / 0.0)
  else
    let isMark (c : Char) : Bool := c = 'e' || c = 'E'
    let mantissa := cs.takeWhile (!isMark ·)
    let marked := cs.dropWhile (!isMark ·)
    let pointed := mantissa.dropWhile (· ≠ '.')
    if marked.isEmpty ∧ pointed.isEmpty then none
    else
      let whole ← whole? (mantissa.takeWhile (· ≠ '.'))
      let fraction ← if pointed.isEmpty then some [] else ungroup? Char.isDigit pointed.tail
      let exponent ← if marked.isEmpty then some 0 else exponent? marked.tail
      let d : Decimal := ⟨Text.ofDigits 10 (whole ++ fraction), exponent - fraction.length⟩
      match d.nearest? negative with
      | some x => some x
      | none => if negative then some (infinity true) else none

/-! ### Moments -/

/-- The number of two digits. -/
def pair? (a b : Char) : Option Nat :=
  if a.isDigit ∧ b.isDigit then some (Text.ofDigits 10 [a, b]) else none

/-- How many days a month has. -/
def daysIn (year month : Nat) : Nat :=
  if month = 2 then
    if year % 4 = 0 ∧ (year % 100 ≠ 0 ∨ year % 400 = 0) then 29 else 28
  else if month = 4 ∨ month = 6 ∨ month = 9 ∨ month = 11 then 30
  else 31

/-- A date at the front, and what follows it. -/
def date? : List Char → Option (List Char)
  | a :: b :: c :: d :: '-' :: e :: f :: '-' :: g :: h :: rest => do
    let year := (← pair? a b) * 100 + (← pair? c d)
    let month ← pair? e f
    let day ← pair? g h
    if 1 ≤ month ∧ month ≤ 12 ∧ 1 ≤ day ∧ day ≤ daysIn year month then some rest else none
  | _ => none

/-- A time of day at the front, and what follows it. -/
def time? : List Char → Option (List Char)
  | a :: b :: ':' :: c :: d :: ':' :: e :: f :: rest => do
    let hour ← pair? a b
    let minute ← pair? c d
    let second ← pair? e f
    if hour < 24 ∧ minute < 60 ∧ second ≤ 60 then
      match rest with
      | '.' :: g :: rest => if g.isDigit then some (rest.dropWhile Char.isDigit) else none
      | rest => some rest
    else none
  | _ => none

/-- An offset from universal time, or nothing. -/
def isOffset : List Char → Bool
  | [] => true
  | ['Z'] => true
  | ['z'] => true
  | [sign, a, b, ':', c, d] =>
    (sign = '+' || sign = '-') &&
      (match pair? a b, pair? c d with
      | some hour, some minute => hour < 24 && minute < 60
      | _, _ => false)
  | _ => false

/-- A date, a time, or a date with a time. -/
def isMoment (cs : List Char) : Bool :=
  match date? cs with
  | some [] => true
  | some (c :: rest) =>
    (c = 'T' || c = 't' || c = ' ') && ((time? rest).map isOffset).getD false
  | none => time? cs = some []

/-- The value that a bare word stands for. -/
def scalar? (cs : List Char) : Option Value :=
  if cs = "true".toList then some (.boolean true)
  else if cs = "false".toList then some (.boolean false)
  else if isMoment cs then some .datetime
  else
    match integer? cs with
    | some n => some (.integer n)
    | none => (float? cs).map .float

end AccessGraph.Toml
