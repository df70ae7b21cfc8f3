/-!
# Parts of a text by bytes

Positions in a text are counted in bytes, and a character takes one to four of them.

* `Text.byteLength` : the number of bytes of some characters.
* `Text.slice?` : the part of a text between two positions. There is none if a position is inside of
  a character.
-/

namespace AccessGraph.Text

/-- How many bytes some characters take. -/
def byteLength : List Char → Nat
  | [] => 0
  | c :: cs => c.utf8Size + byteLength cs

/-- The first characters of a text, unless the last one of them would be cut. -/
def takeBytes? : (count : Nat) → List Char → Option (List Char)
  | 0, _ => some []
  | _ + 1, [] => some []
  | count + 1, c :: cs =>
    if c.utf8Size ≤ count + 1 then (takeBytes? (count + 1 - c.utf8Size) cs).map (c :: ·) else none

/-- A text without its first characters, unless the last one of them would be cut. -/
def dropBytes? : (count : Nat) → List Char → Option (List Char)
  | 0, cs => some cs
  | _ + 1, [] => some []
  | count + 1, c :: cs =>
    if c.utf8Size ≤ count + 1 then dropBytes? (count + 1 - c.utf8Size) cs else none

/-- The part of a text between two positions, unless one of them is inside of a character. -/
def slice? (start stop : Nat) (cs : List Char) : Option (List Char) :=
  (dropBytes? start cs).bind (takeBytes? (stop - start))

end AccessGraph.Text
