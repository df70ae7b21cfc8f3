import AccessGraph.Render.Dot
import Mathlib.Data.List.Basic
import Mathlib.Data.List.DropRight
/-!
# Labels between the quotes of DOT

An escaped label has no line feed and no quote that could be taken for its end, so that a reader
finds where it ends, whatever stands behind it.

* `Dot.toList_escape` : the three replacements come to one, character by character.
* `Dot.unescape` : an escape undone, from left to right; `Dot.unescape_eq_some_iff`.
* `Dot.trailingSlashes` : the run of backslashes in front of a quote; `Dot.odd_of_flatMap_eq`.
* `Dot.readLabel` : a label from behind its opening quote.
* `Dot.readLabel_escape` : **a label is read back from its escaped form, up to its closing quote.**
* `Dot.newline_not_mem_escape` : **an escaped label stays on its line.**
* `Dot.escape_reversible` : **an escape can be undone, and stays between its quotes.**
-/

namespace AccessGraph.Dot

/-! ### One pass -/

/-- Three characters are special. -/
theorem special_or_plain (c : Char) :
    c = '\\' ∨ c = '"' ∨ c = '\n' ∨ (c ≠ '\\' ∧ c ≠ '"' ∧ c ≠ '\n') := by
  by_cases hslash : c = '\\'
  · exact .inl hslash
  by_cases hquote : c = '"'
  · exact .inr (.inl hquote)
  by_cases hfeed : c = '\n'
  · exact .inr (.inr (.inl hfeed))
  · exact .inr (.inr (.inr ⟨hslash, hquote, hfeed⟩))

theorem escapeChar_of_ne {c : Char} (hslash : c ≠ '\\') (hquote : c ≠ '"') (hfeed : c ≠ '\n') :
    escapeChar c = [c] := by
  rw [escapeChar, if_neg hslash, if_neg hquote, if_neg hfeed]

/-- What the three replacements make of one character. -/
theorem replace_singleton (c : Char) :
    replace '\n' ['\\', 'n'] (replace '"' ['\\', '"'] (replace '\\' ['\\', '\\'] [c])) =
      escapeChar c := by
  rcases special_or_plain c with rfl | rfl | rfl | ⟨hslash, hquote, hfeed⟩
  · rfl
  · rfl
  · rfl
  · rw [escapeChar_of_ne hslash hquote hfeed]
    simp [replace, hslash, hquote, hfeed]

theorem replace_append (c : Char) (new cs ds : List Char) :
    replace c new (cs ++ ds) = replace c new cs ++ replace c new ds := List.flatMap_append

/-- **The three replacements come to one**, character by character. -/
theorem toList_escape (label : String) :
    (escape label).toList = label.toList.flatMap escapeChar := by
  rw [escape, String.toList_ofList]
  induction label.toList with
  | nil => rfl
  | cons c cs ih =>
    rw [show c :: cs = [c] ++ cs from rfl, replace_append, replace_append, replace_append,
      replace_singleton, ih, List.flatMap_append, List.flatMap_singleton]

/-- The backslashes that quotes and line feeds bring in stay single. -/
example : escape "a\\\"b\n" = "a\\\\\\\"b\\n" := by decide

theorem newline_not_mem_escapeChar (c : Char) : '\n' ∉ escapeChar c := by
  rcases special_or_plain c with rfl | rfl | rfl | ⟨hslash, hquote, hfeed⟩
  · decide
  · decide
  · decide
  · rw [escapeChar_of_ne hslash hquote hfeed, List.mem_singleton]
    exact Ne.symm hfeed

/-- **An escaped label stays on its line.** -/
theorem newline_not_mem_escape (label : String) : '\n' ∉ (escape label).toList := by
  rw [toList_escape, List.mem_flatMap]
  rintro ⟨c, -, hc⟩
  exact newline_not_mem_escapeChar c hc

/-! ### Undoing an escape -/

/-- The character that a backslash and a second character stand for. -/
def meant? (c : Char) : Option Char :=
  if c = '\\' ∨ c = '"' then some c else if c = 'n' then some '\n' else none

/-- Undo an escape from left to right. A backslash belongs to the character behind it; what stands
in no escape is refused. -/
def unescape : List Char → Option (List Char)
  | [] => some []
  | '\\' :: c :: cs => do return (← meant? c) :: (← unescape cs)
  | c :: cs => if c = '\\' ∨ c = '"' ∨ c = '\n' then none else (unescape cs).map (c :: ·)

theorem escapeChar_of_meant? {c d : Char} (h : meant? c = some d) : escapeChar d = ['\\', c] := by
  unfold meant? at h
  split at h
  · rename_i hsame
    obtain rfl := Option.some.inj h
    rcases hsame with rfl | rfl
    · rfl
    · rfl
  · split at h
    · rename_i hn
      obtain rfl := Option.some.inj h
      rw [hn]
      rfl
    · cases h

theorem unescape_plain {c : Char} (hslash : c ≠ '\\') (hquote : c ≠ '"') (hfeed : c ≠ '\n')
    (cs : List Char) : unescape (c :: cs) = (unescape cs).map (c :: ·) := by
  rw [unescape, if_neg (by simp [hslash, hquote, hfeed])]
  exact fun _ _ heq => absurd heq hslash

/-- One step back, over what one character has become. -/
theorem unescape_escapeChar (c : Char) (cs : List Char) :
    unescape (escapeChar c ++ cs) = (unescape cs).map (c :: ·) := by
  rcases special_or_plain c with rfl | rfl | rfl | ⟨hslash, hquote, hfeed⟩
  · exact (Option.map_eq_bind ..).symm
  · exact (Option.map_eq_bind ..).symm
  · exact (Option.map_eq_bind ..).symm
  · rw [escapeChar_of_ne hslash hquote hfeed]
    exact unescape_plain hslash hquote hfeed cs

/-- **Exactly what has been escaped can be undone**, and it comes to what it was before. -/
theorem unescape_eq_some_iff {cs label : List Char} :
    unescape cs = some label ↔ label.flatMap escapeChar = cs := by
  constructor
  · intro h
    fun_induction unescape cs generalizing label with
    | case1 =>
      obtain rfl := Option.some.inj h
      rfl
    | case2 c cs ih =>
      obtain ⟨d, hd, h⟩ := Option.bind_eq_some_iff.1 h
      obtain ⟨rest, hrest, h⟩ := Option.bind_eq_some_iff.1 h
      obtain rfl := Option.some.inj h
      rw [List.flatMap_cons, escapeChar_of_meant? hd, ih hrest]
      rfl
    | case3 c cs _ _ => cases h
    | case4 c cs _ hplain ih =>
      obtain ⟨rest, hrest, rfl⟩ := Option.map_eq_some_iff.1 h
      rw [not_or, not_or] at hplain
      rw [List.flatMap_cons, escapeChar_of_ne hplain.1 hplain.2.1 hplain.2.2, ih hrest]
      rfl
  · rintro rfl
    induction label with
    | nil => rfl
    | cons c label ih => rw [List.flatMap_cons, unescape_escapeChar, ih, Option.map_some]

/-! ### Quotes inside -/

/-- How many backslashes some characters end with. -/
def trailingSlashes (cs : List Char) : Nat := (cs.rtakeWhile (· = '\\')).length

theorem trailingSlashes_concat (cs : List Char) (c : Char) :
    trailingSlashes (cs ++ [c]) = if c = '\\' then trailingSlashes cs + 1 else 0 := by
  unfold trailingSlashes
  rw [List.rtakeWhile_concat]
  by_cases hslash : c = '\\'
  · simp [hslash]
  · simp [hslash]

/-- An even number of backslashes more does not matter, even where they all stand together. -/
theorem trailingSlashes_append_mod_two {cs : List Char} (h : trailingSlashes cs % 2 = 0)
    (ds : List Char) : trailingSlashes (cs ++ ds) % 2 = trailingSlashes ds % 2 := by
  induction ds using List.reverseRecOn with
  | nil => simpa [trailingSlashes] using h
  | append_singleton ds d ih =>
    rw [← List.append_assoc, trailingSlashes_concat, trailingSlashes_concat]
    split
    · omega
    · rfl

/-- No character leaves a backslash behind that has nothing to belong to. -/
theorem trailingSlashes_escapeChar (c : Char) : trailingSlashes (escapeChar c) % 2 = 0 := by
  rcases special_or_plain c with rfl | rfl | rfl | ⟨hslash, hquote, hfeed⟩
  · decide
  · decide
  · decide
  · rw [escapeChar_of_ne hslash hquote hfeed, ← List.nil_append [c], trailingSlashes_concat,
      if_neg hslash]

/-- What becomes of one character has a quote in one place only. -/
theorem eq_of_escapeChar_eq {c : Char} {before after : List Char}
    (h : escapeChar c = before ++ '"' :: after) : before = ['\\'] := by
  have hmem : '"' ∈ escapeChar c := h ▸ List.mem_append_right before List.mem_cons_self
  rcases special_or_plain c with rfl | rfl | rfl | ⟨hslash, hquote, hfeed⟩
  · exact absurd hmem (by decide)
  · match before, h with
    | [], h => exact absurd (List.cons.inj h).1 (by decide)
    | [first], h => rw [(List.cons.inj h).1]
    | _ :: _ :: before, h => exact absurd (congrArg List.length h) (by simp [escapeChar])
  · exact absurd hmem (by decide)
  · rw [escapeChar_of_ne hslash hquote hfeed, List.mem_singleton] at hmem
    exact absurd hmem.symm hquote

/-- **A quote comes behind an odd number of backslashes**: those of whole characters are even in
number, and one more belongs to the quote. -/
theorem odd_of_flatMap_eq {label before after : List Char}
    (h : label.flatMap escapeChar = before ++ '"' :: after) : trailingSlashes before % 2 = 1 := by
  induction label generalizing before with
  | nil => simp at h
  | cons c label ih =>
    rw [List.flatMap_cons] at h
    rcases List.append_eq_append_iff.1 h with ⟨inside, rfl, hrest⟩ | ⟨inside, hc, hrest⟩
    · rw [trailingSlashes_append_mod_two (trailingSlashes_escapeChar c)]
      exact ih hrest
    · cases inside with
      | nil =>
        -- the quote would come first of what the other characters have become
        have hfirst : trailingSlashes [] % 2 = 1 := @ih [] hrest.symm
        simp [trailingSlashes] at hfirst
      | cons d inside =>
        obtain ⟨rfl, -⟩ := List.cons.inj hrest
        rw [eq_of_escapeChar_eq hc]
        decide

/-! ### Reading back -/

/-- Read a label from behind its opening quote, up to its closing one. A backslash belongs to the
character behind it. -/
def readLabel : List Char → Option (List Char × List Char)
  | [] => none
  | '"' :: rest => some ([], rest)
  | '\\' :: c :: cs =>
    (readLabel cs).map fun (label, rest) => ((if c = 'n' then '\n' else c) :: label, rest)
  | c :: cs => (readLabel cs).map fun (label, rest) => (c :: label, rest)

theorem readLabel_plain {c : Char} (hslash : c ≠ '\\') (hquote : c ≠ '"') (cs : List Char) :
    readLabel (c :: cs) = (readLabel cs).map fun (label, rest) => (c :: label, rest) := by
  rw [readLabel]
  · exact hquote
  · exact fun _ _ heq => absurd heq hslash

/-- One step of the reader, over what one character has become. -/
theorem readLabel_escapeChar (c : Char) (cs : List Char) :
    readLabel (escapeChar c ++ cs) = (readLabel cs).map fun (label, rest) => (c :: label, rest) := by
  rcases special_or_plain c with rfl | rfl | rfl | ⟨hslash, hquote, hfeed⟩
  · rfl
  · rfl
  · rfl
  · rw [escapeChar_of_ne hslash hquote hfeed]
    exact readLabel_plain hslash hquote cs

/-- **A label is read back from its escaped form**, up to its closing quote. -/
theorem readLabel_escape (label : String) (rest : List Char) :
    readLabel ((escape label).toList ++ '"' :: rest) = some (label.toList, rest) := by
  rw [toList_escape]
  induction label.toList with
  | nil => rfl
  | cons c cs ih =>
    rw [List.flatMap_cons, List.append_assoc, readLabel_escapeChar, ih]
    rfl

/-- **An escape can be undone, and stays between its quotes.** The three replacements come to one pass
over the characters, which is undone from left to right; nothing else is undone to the same label.
There is no line feed in an escape, and each quote comes behind an odd number of backslashes, so that
a reader goes on to the quote behind the escape. -/
theorem escape_reversible (label : String) :
    (escape label).toList = label.toList.flatMap escapeChar ∧
    (∀ cs, unescape cs = some label.toList ↔ (escape label).toList = cs) ∧
    '\n' ∉ (escape label).toList ∧
    (∀ before after, (escape label).toList = before ++ '"' :: after →
      trailingSlashes before % 2 = 1) ∧
    ∀ rest, readLabel ((escape label).toList ++ '"' :: rest) = some (label.toList, rest) := by
  refine ⟨toList_escape label, fun cs => ?_, newline_not_mem_escape label,
    fun before after h => ?_, readLabel_escape label⟩
  · rw [unescape_eq_some_iff, toList_escape]
  · rw [toList_escape] at h
    exact odd_of_flatMap_eq h

end AccessGraph.Dot
