/-!
# Digits

* `Text.isHexDigit`, `Text.digitValue`, `Text.ofDigits` : digits and the numbers that they stand for.
* `Text.readCodePoint?` : a character that is given by its code point.
-/

namespace AccessGraph.Text

/-- The value of a digit in some base. -/
def digitValue (c : Char) : Nat :=
  if c.isDigit then c.toNat - '0'.toNat
  else if 'a' ≤ c ∧ c ≤ 'f' then c.toNat - 'a'.toNat + 10
  else c.toNat - 'A'.toNat + 10

/-- The character is a digit in base sixteen. -/
def isHexDigit (c : Char) : Bool := c.isDigit || ('a' ≤ c && c ≤ 'f') || ('A' ≤ c && c ≤ 'F')

/-- The number of some digits. -/
def ofDigits (base : Nat) (cs : List Char) : Nat :=
  cs.foldl (fun n c => base * n + digitValue c) 0

/-- The character of a code point. -/
def charOf? (n : Nat) : Option Char :=
  if n < 0xd800 ∨ (0xe000 ≤ n ∧ n < 0x110000) then some (Char.ofNat n) else none

/-- Read the code point of a character, which is written with `count` digits in base sixteen. -/
def readCodePoint? (count : Nat) (cs : List Char) : Option (Char × List Char) := do
  let digits := cs.take count
  if digits.length = count ∧ digits.all isHexDigit then
    some (← charOf? (ofDigits 16 digits), cs.drop count)
  else none

end AccessGraph.Text
