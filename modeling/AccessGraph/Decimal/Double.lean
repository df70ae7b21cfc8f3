import AccessGraph.Decimal.Shortest
/-!
# Doubles as decimal text

* `Decimal.nearest?` : the double that a decimal number rounds to, unless it is too large for one.
* `Decimal.scaled?` : the double that is computed from the digits and the power of ten, both rounded.
* `DoubleStyle` : the decisions a written form takes, and `DoubleStyle.write`, which writes the
  shortest decimal that reads back in that form.
* `DoubleStyle.compact` and `DoubleStyle.plain` : the two forms in use.
-/

namespace AccessGraph

namespace Decimal

/-- The double nearest to a decimal number, with the given sign; `none` if that is infinite.

Far outside the range of doubles the power of ten is not computed: the answer is known from the
position of the leading digit. -/
def nearest? (negative : Bool) (d : Decimal) : Option Float :=
  let signed (x : Float) : Float := if negative then -x else x
  let leading : Int := width d.digits + d.exponent
  if d.digits = 0 ∨ leading < -400 then some (signed 0.0)
  else if 400 < leading then none
  else
    let x :=
      if 0 ≤ d.exponent then Float.ofScientific (d.digits * power d.exponent.toNat) false 0
      else Float.ofScientific d.digits true (-d.exponent).toNat
    if x.isInf then none else some (signed x)

/-- The greatest power of ten that is a double. -/
def maxPower : Nat := 308

/-- A power of ten as a double. -/
def powerDouble (k : Nat) : Float := Float.ofScientific 1 false k

/-- A double divided by the greatest power of ten a number of times, or until it is zero. -/
def shrink : (times : Nat) → Float → Float
  | 0, x => x
  | times + 1, x => if x == 0.0 then x else shrink times (x / powerDouble maxPower)

/-- The digits as a double, times or over a power of ten; `none` if that is infinite.

The digits, the power and the result are all rounded, so that this need not be the nearest double. -/
def scaled? (d : Decimal) : Option Float :=
  let x := Float.ofNat d.digits
  let size := d.exponent.natAbs
  if d.exponent < 0 then
    let times := (size - 1) / maxPower
    some (shrink times x / powerDouble (size - times * maxPower))
  else if size ≤ maxPower then
    let x := x * powerDouble size
    if x.isInf then none else some x
  else if x == 0.0 then some x
  else none

/-- The digits as text. -/
def text (d : Decimal) : String := String.ofList (Nat.toDigits 10 d.digits)

/-- The exponent that the number has when the point stands behind its first digit. -/
def order (d : Decimal) : Int := width d.digits + d.exponent - 1

/-- The number `count` of zeros as text. -/
def zeros (count : Nat) : String := String.ofList (List.replicate count '0')

/-- Positional form, with at least one digit on either side of the point. -/
def positional (d : Decimal) : String :=
  if 0 ≤ d.exponent then d.text ++ zeros d.exponent.toNat ++ ".0"
  else if 0 ≤ d.order then
    let whole := d.text.toList.take (d.order + 1).toNat
    let part := d.text.toList.drop (d.order + 1).toNat
    String.ofList whole ++ "." ++ String.ofList part
  else "0." ++ zeros (-d.order - 1).toNat ++ d.text

/-- Scientific form: one digit, the others behind a point if there are any, and a signed
exponent. -/
def scientific (d : Decimal) : String :=
  let mantissa := match d.text.toList with
    | first :: second :: rest => String.ofList [first] ++ "." ++ String.ofList (second :: rest)
    | digits => String.ofList digits
  let exponent := String.ofList (Nat.toDigits 10 d.order.natAbs)
  mantissa ++ (if d.order < 0 then "e-" else "e+") ++ exponent

end Decimal

/-- The decisions that a written form of doubles takes. -/
structure DoubleStyle where
  /-- The form is positional for these exponents of the leading digit, scientific otherwise. -/
  isPositional : Int → Bool
  /-- Which of two equally near decimals of the same length is written. -/
  tie : Tie
  /-- The written form of infinity, without sign. -/
  infinity : String
  /-- The written form of a value that is not a number. -/
  nan : String

namespace DoubleStyle

/-- Positional from `0.00001` up to `10 ^ 16`, scientific outside; a tie goes to the even digit. -/
def compact : DoubleStyle := ⟨fun order => -5 ≤ order ∧ order < 16, .toEven, "inf", "NaN"⟩

/-- Positional at any size; a tie goes upward. -/
def plain : DoubleStyle := ⟨fun _ => true, .upward, "inf", "NaN"⟩

/-- The sign bit is set. -/
def isNegative (x : Float) : Bool := x.toBits >>> 63 = 1

/-- The shortest decimal of the absolute value of a finite double. -/
def magnitude (style : DoubleStyle) (x : Float) : Decimal :=
  let b := Binary.ofFloat x
  if b.mantissa = 0 then ⟨0, 0⟩ else b.shortest style.tie

/-- A double as text. -/
def write (style : DoubleStyle) (x : Float) : String :=
  if x.isNaN then style.nan
  else
    let sign := if isNegative x then "-" else ""
    if x.isInf then sign ++ style.infinity
    else
      let d := style.magnitude x
      sign ++ if style.isPositional d.order then d.positional else d.scientific

end DoubleStyle

end AccessGraph
