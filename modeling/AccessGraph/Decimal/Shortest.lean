/-!
# The shortest decimal that reads back

A finite double stands for the exact number `mantissa * 2 ^ exponent`, and every real number in a
small interval around it rounds to it.

* `Decimal` : a decimal number `digits * 10 ^ exponent`.
* `Binary.ofFloat` : the mantissa and exponent of the absolute value of a finite double.
* `Tie` : which of two decimals is taken that are equally near.
* `Binary.shortest` : the decimal with the fewest digits inside the interval, and of those the one
  nearest to the exact number.

All of it is exact arithmetic on natural numbers: a grid of decimals is tried for one digit, then
for two, and so on, and on each grid only the two neighbours of the exact number can be nearest.
-/

namespace AccessGraph

/-- The decimal number `digits * 10 ^ exponent`. -/
structure Decimal where
  /-- The significant digits, as one natural number. -/
  digits : Nat
  /-- The power of ten that they are multiplied by. -/
  exponent : Int
  deriving DecidableEq, Repr

/-- The number `mantissa * 2 ^ exponent`. -/
structure Binary where
  /-- The significand, an integer below `2 ^ 53` for a double. -/
  mantissa : Nat
  /-- The power of two that it is multiplied by. -/
  exponent : Int
  deriving DecidableEq, Repr

/-- Which of two neighbours on a grid is taken if the exact number lies in the middle. -/
inductive Tie where
  /-- The one with the even last digit. -/
  | toEven
  /-- The greater one. -/
  | upward
  deriving DecidableEq, Repr

/-- The lower neighbour `below` is taken in a tie. -/
def Tie.keeps (tie : Tie) (below : Nat) : Bool :=
  match tie with
  | .toEven => below % 2 = 0
  | .upward => false

namespace Decimal

/-- A power of ten. -/
def power (k : Nat) : Nat := Nat.pow 10 k

/-- How many decimal digits the natural number `n` has. -/
def width (n : Nat) : Nat := (Nat.toDigits 10 n).length

/-- Drop the zeros at the end of the digits, at most `limit` of them. -/
def dropZeros : (limit : Nat) → Decimal → Decimal
  | 0, d => d
  | limit + 1, d =>
    if d.digits ≠ 0 ∧ d.digits % 10 = 0 then dropZeros limit ⟨d.digits / 10, d.exponent + 1⟩ else d

end Decimal

namespace Binary

/-- A power of two. -/
def power (k : Nat) : Nat := Nat.pow 2 k

/-- The absolute value of a finite double. -/
def ofFloat (x : Float) : Binary :=
  let bits : Nat := x.toBits.toNat
  let fraction : Nat := bits % power 52
  let biased : Nat := bits / power 52 % power 11
  if biased = 0 then ⟨fraction, -1074⟩ else ⟨power 52 + fraction, (biased : Int) - 1075⟩

/-- The reals that round to a double, over a common denominator: the exact number is
`value / unit`, and the interval reaches from `low / unit` to `high / unit`. -/
structure Interval where
  /-- Numerator of the lower end. -/
  low : Nat
  /-- Numerator of the exact number. -/
  value : Nat
  /-- Numerator of the upper end. -/
  high : Nat
  /-- The common denominator. -/
  unit : Nat
  /-- The two ends belong to the interval. -/
  closed : Bool

/-- The rounding interval of a positive double. Half the gap to the next double is inside on either
side; below a power of two the gap is half as wide. Ties round to an even mantissa, so the ends
belong to the interval exactly then. -/
def interval (x : Binary) : Interval :=
  let narrow := x.mantissa = power 52 ∧ x.exponent ≠ -1074
  let scale := power (x.exponent - 2).toNat
  { low := (4 * x.mantissa - (if narrow then 1 else 2)) * scale
    value := 4 * x.mantissa * scale
    high := (4 * x.mantissa + 2) * scale
    unit := power (2 - x.exponent).toNat
    closed := x.mantissa % 2 = 0 }

namespace Interval

/-- Numerators of the decimal `d * 10 ^ k` and of the interval's value over one denominator. -/
def scaled (i : Interval) (d : Nat) (k : Int) (numerator : Nat) : Nat × Nat :=
  (d * Decimal.power k.toNat * i.unit, numerator * Decimal.power (-k).toNat)

/-- `d * 10 ^ k` rounds to the double. -/
def contains (i : Interval) (d : Nat) (k : Int) : Bool :=
  let (x, low) := i.scaled d k i.low
  let (_, high) := i.scaled d k i.high
  if i.closed then low ≤ x ∧ x ≤ high else low < x ∧ x < high

/-- The largest multiple of `10 ^ k` that is not above the value, as a factor of `10 ^ k`. -/
def floorAt (i : Interval) (k : Int) : Nat :=
  (i.value * Decimal.power (-k).toNat) / (i.unit * Decimal.power k.toNat)

/-- The decimal of the grid `10 ^ k` that is nearest to the value among those inside the interval,
if there is one. -/
def nearestAt (tie : Tie) (i : Interval) (k : Int) : Option Decimal :=
  let below := i.floorAt k
  let above := below + 1
  match i.contains below k, i.contains above k with
  | false, false => none
  | true, false => some ⟨below, k⟩
  | false, true => some ⟨above, k⟩
  | true, true =>
    let (x, value) := i.scaled below k i.value
    let (y, _) := i.scaled above k i.value
    let gapBelow := value - x
    let gapAbove := y - value
    if gapBelow < gapAbove ∨ (gapBelow = gapAbove ∧ tie.keeps below) then some ⟨below, k⟩
    else some ⟨above, k⟩

/-- How many digits stand before the point, or minus how many zeros follow it: the value lies below
`10 ^ magnitude` and not below `10 ^ (magnitude - 1)`. -/
def magnitude (i : Interval) : Int :=
  let whole := i.value / i.unit
  if whole ≠ 0 then Decimal.width whole
  else
    let zeros := Decimal.width (i.unit / i.value)
    if i.unit ≤ i.value * Decimal.power (zeros - 1) then 2 - zeros else 1 - zeros

end Interval

/-- Seventeen digits always tell one double from its neighbours. -/
def maxDigits : Nat := 17

/-- The shortest decimal that rounds to a positive double. -/
def shortest (tie : Tie) (x : Binary) : Decimal :=
  let i := x.interval
  let found := (List.range maxDigits).findSome? fun n =>
    i.nearestAt tie (i.magnitude - 1 - Int.ofNat n)
  (found.getD ⟨i.floorAt (i.magnitude - maxDigits), i.magnitude - maxDigits⟩).dropZeros maxDigits

end Binary

end AccessGraph
