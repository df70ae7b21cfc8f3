/-!
# Regular expressions

* `Regex.Flags` : what a group sets for the parts inside of it.
* `Regex.CharClass` : classes of characters.
* `Regex` : regular expressions.
* `Regex.nesting` : how deep the parts of a regular expression lie inside each other.

What an expression matches does not matter here, but whether it can be used.
-/

namespace AccessGraph

namespace Regex

/-- The flags that a group sets or resets, as far as they have a bearing on what is well formed. -/
structure Flags where
  /-- Upper and lower case are not told apart. -/
  ignoreCase : Option Bool
  /-- Characters are those of Unicode, not single bytes. -/
  unicode : Option Bool
  /-- Blanks and comments do not count. -/
  spaced : Option Bool
  deriving DecidableEq, Repr

/-- No flag is set or reset. -/
def Flags.unset : Flags := ⟨none, none, none⟩

/-- A class of characters. -/
inductive CharClass where
  /-- A character. -/
  | literal (c : Char)
  /-- The characters from one to another. -/
  | range (first last : Char)
  /-- A class that is known by a name between colons, or its complement. -/
  | named (negated : Bool)
  /-- Digits, blanks or characters of words, or a complement of these. -/
  | shorthand (negated : Bool)
  /-- A class in brackets, or its complement. -/
  | bracketed (negated : Bool) (inner : CharClass)
  /-- What belongs to one of some classes. -/
  | union (parts : List CharClass)
  /-- What belongs to both of two classes, to the first one only, or to exactly one of them. -/
  | combined (left right : CharClass)

end Regex

/-- A regular expression. -/
inductive Regex where
  /-- Nothing. -/
  | empty
  /-- Flags for all that follows in the same group. -/
  | flags (flags : Regex.Flags)
  /-- A character. It may be given as a byte. -/
  | literal (c : Char) (isByte : Bool)
  /-- Any character. -/
  | dot
  /-- A character of a class. -/
  | oneOf (characters : Regex.CharClass)
  /-- An end of the text or of a line. -/
  | edge
  /-- A border of a word, or its absence. -/
  | border
  /-- Something any number of times, or at most once. -/
  | repetition (inner : Regex)
  /-- A group with its own flags. -/
  | group (flags : Regex.Flags) (inner : Regex)
  /-- One part after the other. -/
  | sequence (parts : List Regex)
  /-- One of some parts. -/
  | choice (branches : List Regex)
  deriving Inhabited

namespace Regex

/-! ### Nesting -/

mutual

/-- How many brackets, unions and combinations lie inside each other. -/
def CharClass.nesting : CharClass → Nat
  | .literal _ | .range _ _ | .named _ | .shorthand _ => 0
  | .bracketed _ inner => inner.nesting + 1
  | .union [] => 0
  | .union parts => CharClass.nestingAll parts + 1
  | .combined left right => max left.nesting right.nesting + 1

/-- The greatest nesting of some classes. -/
def CharClass.nestingAll : List CharClass → Nat
  | [] => 0
  | c :: cs => max c.nesting (CharClass.nestingAll cs)

end

mutual

/-- How many compound parts lie inside each other. -/
def nesting : Regex → Nat
  | .empty | .flags _ | .literal _ _ | .dot | .edge | .border => 0
  | .oneOf characters => characters.nesting
  | .repetition inner => inner.nesting + 1
  | .group _ inner => inner.nesting + 1
  | .sequence parts => nestingAll parts + 1
  | .choice branches => nestingAll branches + 1

/-- The greatest nesting of some parts. -/
def nestingAll : List Regex → Nat
  | [] => 0
  | r :: rs => max r.nesting (nestingAll rs)

end

/-- The greatest nesting that is accepted. -/
def nestingLimit : Nat := 250

/-! ### Putting parts together -/

/-- What belongs to one of some classes. A single one stands for itself. -/
def CharClass.ofParts : List CharClass → CharClass
  | [c] => c
  | cs => .union cs

/-- One part after the other. A single part stands for itself. -/
def ofParts : List Regex → Regex
  | [] => .empty
  | [r] => r
  | rs => .sequence rs

/-- One of some branches. A single branch stands for itself. -/
def ofBranches : List Regex → Regex
  | [r] => r
  | rs => .choice rs

end Regex

end AccessGraph
