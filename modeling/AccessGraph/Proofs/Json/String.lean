import AccessGraph.Json.Printer
import AccessGraph.Json.Scan
/-!
# Strings are read back

A string is read one written character at a time, whether the character stands for itself, is
escaped by a letter or by its code point.

* `Json.readEscape_quad` : an escape by code point is read back.
* `Json.readCharacters_escapeChar` : one step of the reader, over one written character.
* `Json.readString_escaped` : **every string is read back from its text.**
-/

namespace AccessGraph.Json

/-! ### Escapes by code point -/

theorem hexValue?_digitChar {n : Nat} (h : n < 16) : hexValue? (Nat.digitChar n) = some n := by
  have hall : ∀ n, n < 16 → hexValue? (Nat.digitChar n) = some n := by decide
  exact hall n h

/-- The two digits of a control give it back. -/
theorem readQuad_control {n : Nat} (h : n < 0x20) (rest : List Char) :
    readQuad ('0' :: '0' :: Nat.digitChar (n / 16) :: Nat.digitChar (n % 16) :: rest) =
      .ok (n, rest) := by
  have hzero : hexValue? '0' = some 0 := by decide
  have hhigh : hexValue? (Nat.digitChar (n / 16)) = some (n / 16) := hexValue?_digitChar (by omega)
  have hlow : hexValue? (Nat.digitChar (n % 16)) = some (n % 16) := hexValue?_digitChar (by omega)
  have hvalue : ((0 * 16 + 0) * 16 + n / 16) * 16 + n % 16 = n := by omega
  simp only [readQuad, hzero, hhigh, hlow, hvalue]

/-- A control is read back from its escape. -/
theorem readEscape_quad {c : Char} (h : c.toNat < 0x20) (rest : List Char) :
    readEscape ('u' :: '0' :: '0' :: Nat.digitChar (c.toNat / 16) ::
      Nat.digitChar (c.toNat % 16) :: rest) = .ok (c, rest) := by
  have htrailing : isTrailing c.toNat = false := decide_eq_false (by omega)
  have hleading : isLeading c.toNat = false := decide_eq_false (by omega)
  rw [readEscape, if_pos rfl, readCodePoint, readQuad_control h]
  simp only [bind, Except.bind, htrailing, hleading, Bool.false_eq_true, if_false,
    Char.ofNat_toNat]

/-! ### The steps of the reader -/

theorem readCharacters_quote (before rest : List Char) :
    readCharacters before ('"' :: rest) = .ok (String.ofList before.reverse, rest) := by
  rw [readCharacters, if_pos rfl]

theorem readCharacters_escape {cs rest : List Char} {c : Char} (h : readEscape cs = .ok (c, rest))
    (before : List Char) :
    readCharacters before ('\\' :: cs) = readCharacters (c :: before) rest := by
  rw [readCharacters, if_neg (by decide), if_pos rfl]
  split
  · rename_i heq
    rw [h] at heq
    cases heq
  · rename_i heq
    rw [h] at heq
    cases heq
    rfl

theorem readCharacters_plain {c : Char} (hquote : c ≠ '"') (hslash : c ≠ '\\')
    (hcontrol : ¬ c.toNat < 0x20) (before rest : List Char) :
    readCharacters before (c :: rest) = readCharacters (c :: before) rest := by
  rw [readCharacters, if_neg hquote, if_neg hslash, if_neg hcontrol]

/-- One step of the reader, over one written character. -/
theorem readCharacters_escapeChar (c : Char) (before rest : List Char) :
    readCharacters before (escapeChar c ++ rest) = readCharacters (c :: before) rest := by
  unfold escapeChar
  by_cases hquote : c = '"'
  · subst hquote
    exact readCharacters_escape rfl before
  by_cases hslash : c = '\\'
  · subst hslash
    exact readCharacters_escape rfl before
  by_cases hbackspace : c = '\x08'
  · subst hbackspace
    exact readCharacters_escape rfl before
  by_cases htab : c = '\t'
  · subst htab
    exact readCharacters_escape rfl before
  by_cases hfeed : c = '\n'
  · subst hfeed
    exact readCharacters_escape rfl before
  by_cases hform : c = '\x0c'
  · subst hform
    exact readCharacters_escape rfl before
  by_cases hreturn : c = '\r'
  · subst hreturn
    exact readCharacters_escape rfl before
  rw [if_neg hquote, if_neg hslash, if_neg hbackspace, if_neg htab, if_neg hfeed, if_neg hform,
    if_neg hreturn]
  by_cases hcontrol : c.toNat < 0x20
  · rw [if_pos hcontrol]
    exact readCharacters_escape (readEscape_quad hcontrol rest) before
  · rw [if_neg hcontrol]
    exact readCharacters_plain hquote hslash hcontrol before rest

/-! ### Whole strings -/

theorem readCharacters_escaped (cs before rest : List Char) :
    readCharacters before (cs.flatMap escapeChar ++ '"' :: rest) =
      .ok (String.ofList (before.reverse ++ cs), rest) := by
  induction cs generalizing before with
  | nil => rw [List.flatMap_nil, List.nil_append, readCharacters_quote, List.append_nil]
  | cons c cs ih =>
    rw [List.flatMap_cons, List.append_assoc, readCharacters_escapeChar, ih, List.reverse_cons,
      List.append_assoc]
    rfl

/-- **Every string is read back from its text**, from behind the opening quote. -/
theorem readString_escaped (s : String) (rest : List Char) :
    readString (s.toList.flatMap escapeChar ++ '"' :: rest) = .ok (s, rest) := by
  rw [readString, readCharacters_escaped, List.reverse_nil, List.nil_append, String.ofList_toList]

end AccessGraph.Json
