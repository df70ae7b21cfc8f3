import AccessGraph.Regex.Basic
/-!
# What can be matched

A regular expression matches text in UTF-8, and there are no tables of the characters of Unicode. So
there are regular expressions that are well formed but cannot be used.

* `Regex.Setting` : the flags that hold at some place.
* `Regex.CharClass.fits` : a class can be used.
* `Regex.translate` : the effect of a regular expression on the setting, if it can be used.
-/

namespace AccessGraph.Regex

/-- What holds at some place of a regular expression. -/
structure Setting where
  /-- Upper and lower case are not told apart. -/
  ignoreCase : Bool
  /-- Characters are those of Unicode, not single bytes. -/
  unicode : Bool
  /-- A border between words of Unicode stands somewhere before. -/
  hasBorder : Bool
  deriving DecidableEq, Repr

/-- What holds at the beginning. -/
def Setting.start : Setting := ⟨false, true, false⟩

/-- What holds behind some flags. -/
def Setting.apply (s : Setting) (f : Flags) : Setting :=
  { s with
    ignoreCase := f.ignoreCase.getD s.ignoreCase
    unicode := f.unicode.getD s.unicode }

/-- A character takes one byte. -/
def isSingleByte (c : Char) : Bool := c.toNat < 0x80

mutual

/-- A class can be used. Without tables, the cases of a letter and the classes with a shorthand are
known among bytes only. A class of bytes must not hold parts of longer characters, which all
complements do. -/
def CharClass.fits (s : Setting) : CharClass → Bool
  | .literal c => if s.unicode then !s.ignoreCase else isSingleByte c
  | .range first last =>
    if s.unicode then !s.ignoreCase else isSingleByte first && isSingleByte last
  | .named negated => if s.unicode then !s.ignoreCase else !negated
  | .shorthand negated => !s.unicode && !negated
  | .bracketed negated inner => (s.unicode || !negated) && inner.fits s
  | .union parts => CharClass.fitAll s parts
  | .combined left right => left.fits s && right.fits s

/-- Some classes can be used. -/
def CharClass.fitAll (s : Setting) : List CharClass → Bool
  | [] => true
  | c :: cs => c.fits s && CharClass.fitAll s cs

end

mutual

/-- What holds behind a regular expression, if it can be used. The flags that are set in a group do not
hold behind it. -/
def translate (s : Setting) : Regex → Option Setting
  | .empty | .edge => some s
  | .flags f => some (s.apply f)
  | .literal c isByte =>
    if s.unicode then if s.ignoreCase then none else some s
    else if isByte && !isSingleByte c then none
    else some s
  | .dot => if s.unicode then some s else none
  | .oneOf characters => if characters.fits s then some s else none
  | .border => some { s with hasBorder := s.hasBorder || s.unicode }
  | .repetition inner => inner.translate s
  | .group f inner =>
    (inner.translate (s.apply f)).map fun after => { s with hasBorder := after.hasBorder }
  | .sequence parts => translateAll s parts
  | .choice branches => translateAll s branches

/-- What holds behind some parts, if all of them can be used. -/
def translateAll (s : Setting) : List Regex → Option Setting
  | [] => some s
  | r :: rs => (r.translate s).bind fun s => translateAll s rs

end

end AccessGraph.Regex
