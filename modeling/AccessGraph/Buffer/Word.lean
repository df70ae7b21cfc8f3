/-!
# Words in a buffer

A buffer is a list of bytes, and a word is a signed integer of 32 bits.

* `Word.bytes` : the four bytes of a word, least significant first.
* `Word.ofBytes` : the word of four bytes.
* `Word.read?`, `Word.readMany?` : take words off the front of a buffer.
-/

namespace AccessGraph.Word

/-- The four bytes of a word, least significant first. -/
def bytes (w : Int32) : List UInt8 :=
  let u := w.toUInt32
  [u.toUInt8, (u >>> 8).toUInt8, (u >>> 16).toUInt8, (u >>> 24).toUInt8]

/-- The word of four bytes, least significant first. -/
def ofBytes (a b c d : UInt8) : Int32 :=
  (a.toUInt32 ||| b.toUInt32 <<< 8 ||| c.toUInt32 <<< 16 ||| d.toUInt32 <<< 24).toInt32

/-- Take one word off the front of a buffer. -/
def read? : List UInt8 → Option (Int32 × List UInt8)
  | a :: b :: c :: d :: rest => some (ofBytes a b c d, rest)
  | _ => none

/-- Take several words off the front of a buffer. -/
def readMany? : (count : Nat) → List UInt8 → Option (List Int32 × List UInt8)
  | 0, buffer => some ([], buffer)
  | count + 1, buffer => do
    let (w, buffer) ← read? buffer
    let (ws, buffer) ← readMany? count buffer
    some (w :: ws, buffer)

/-- The natural number that a word stands for, if it is not negative. -/
def toNat? (w : Int32) : Option Nat := if 0 ≤ w then some w.toNatClampNeg else none

end AccessGraph.Word
