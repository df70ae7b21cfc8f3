import AccessGraph.Json.Scan
import AccessGraph.Proofs.Result
/-!
# The brackets of a text

The brackets of a text can be counted without reading it, as long as those in strings are left out.
What stands between them has no part in it: blanks, words, numbers and strings are passed over.

* `Json.deepest`, `Json.textNesting` : how many brackets are open at once.
* `Json.Passes`, `Json.Takes`, `Json.Closes` : a part of a text without brackets, one that closes all
  the brackets that it opens, and one that closes one more.
* `Json.passing_readNumber`, `Json.passes_of_readString` : **numbers and strings are passed over.**
-/

namespace AccessGraph.Json

variable {α β : Type}

/-! ### Counting brackets -/

/-- Where a character of a text stands. -/
inductive Quoting where
  /-- Outside of strings. -/
  | outside
  /-- In a string. -/
  | inside
  /-- In a string, behind a backslash. -/
  | escaped

/-- The greatest number of brackets that are open at once in some characters, where `opened` of them
are open already. Brackets in strings do not count. -/
def deepest : Quoting → (opened : Nat) → List Char → Nat
  | _, opened, [] => opened
  | .outside, opened, c :: cs =>
    if c = '"' then deepest .inside opened cs
    else if c = '[' ∨ c = '\x7b' then deepest .outside (opened + 1) cs
    else if c = ']' ∨ c = '\x7d' then max opened (deepest .outside (opened - 1) cs)
    else deepest .outside opened cs
  | .inside, opened, c :: cs =>
    if c = '"' then deepest .outside opened cs
    else if c = '\\' then deepest .escaped opened cs
    else deepest .inside opened cs
  | .escaped, opened, _ :: cs => deepest .inside opened cs

/-- How many arrays and objects lie inside each other in a text. -/
def textNesting (text : String) : Nat := deepest .outside 0 text.toList

theorem le_deepest (quoting : Quoting) (opened : Nat) (cs : List Char) :
    opened ≤ deepest quoting opened cs := by
  induction cs generalizing quoting opened with
  | nil => cases quoting <;> exact Nat.le_refl opened
  | cons c cs ih =>
    cases quoting with
    | outside =>
      rw [deepest]
      split
      · exact ih .inside opened
      · split
        · exact Nat.le_trans (Nat.le_succ opened) (ih .outside (opened + 1))
        · split
          · exact Nat.le_max_left _ _
          · exact ih .outside opened
    | inside =>
      rw [deepest]
      split
      · exact ih .outside opened
      · split
        · exact ih .escaped opened
        · exact ih .inside opened
    | escaped => exact ih .inside opened

/-- A character that is a bracket or a quote. -/
def isMark (c : Char) : Bool := c = '"' || c = '[' || c = ']' || c = '\x7b' || c = '\x7d'

theorem isMark_of_isBlank {c : Char} (h : isBlank c = true) : isMark c = false := by
  simp only [isBlank, Bool.or_eq_true, decide_eq_true_eq] at h
  rcases h with ((rfl | rfl) | rfl) | rfl <;> rfl

theorem isMark_of_isDigit {c : Char} (h : c.isDigit = true) : isMark c = false := by
  rw [Bool.eq_false_iff]
  intro hmark
  simp only [isMark, Bool.or_eq_true, decide_eq_true_eq] at hmark
  rcases hmark with (((rfl | rfl) | rfl) | rfl) | rfl <;> exact absurd h (by decide)

/-! ### What is taken off -/

/-- The part between two ends of a text has no brackets outside of strings. -/
def Passes (cs rest : List Char) : Prop :=
  ∀ opened, deepest .outside opened cs = deepest .outside opened rest

/-- The part between two ends of a text nests as deep as `nesting` says, and leaves no bracket
open. -/
def Takes (cs : List Char) (nesting : Nat) (rest : List Char) : Prop :=
  ∀ opened, deepest .outside opened cs = max (opened + nesting) (deepest .outside opened rest)

/-- The part between two ends of a text closes one bracket more than it opens, and nests as deep as
`nesting` says before. -/
def Closes (cs : List Char) (nesting : Nat) (rest : List Char) : Prop :=
  ∀ opened, deepest .outside (opened + 1) cs =
    max (opened + 1 + nesting) (deepest .outside opened rest)

namespace Passes

theorem refl (cs : List Char) : Passes cs cs := fun _ => rfl

theorem trans {cs mid rest : List Char} (h : Passes cs mid) (h' : Passes mid rest) :
    Passes cs rest := fun opened => (h opened).trans (h' opened)

/-- A part without brackets does not nest. -/
theorem takes {cs rest : List Char} (h : Passes cs rest) : Takes cs 0 rest := by
  intro opened
  rw [h opened, Nat.add_zero, Nat.max_eq_right (le_deepest .outside opened rest)]

theorem takes_of_takes {cs mid rest : List Char} {nesting : Nat} (h : Passes cs mid)
    (h' : Takes mid nesting rest) : Takes cs nesting rest := fun opened =>
  (h opened).trans (h' opened)

theorem closes_of_closes {cs mid rest : List Char} {nesting : Nat} (h : Passes cs mid)
    (h' : Closes mid nesting rest) : Closes cs nesting rest := fun opened =>
  (h (opened + 1)).trans (h' opened)

end Passes

/-- Something in front of the end of a bracket. -/
theorem Takes.closes {cs mid rest : List Char} {n m : Nat} (h : Takes cs n mid)
    (h' : Closes mid m rest) : Closes cs (max n m) rest := by
  intro opened
  rw [h (opened + 1), h' opened, ← Nat.max_assoc, Nat.add_max_add_left]

/-- What stands between brackets nests one deeper with them. -/
theorem takes_of_closes {c : Char} (hc : c = '[' ∨ c = '\x7b') {cs rest : List Char} {nesting : Nat}
    (h : Closes cs nesting rest) : Takes (c :: cs) (1 + nesting) rest := by
  intro opened
  have hopen : deepest .outside opened (c :: cs) = deepest .outside (opened + 1) cs := by
    rcases hc with rfl | rfl <;> rfl
  rw [hopen, h opened, Nat.add_assoc]

/-- A closing bracket. -/
theorem closes_cons {c : Char} (hc : c = ']' ∨ c = '\x7d') (rest : List Char) :
    Closes (c :: rest) 0 rest := by
  intro opened
  rcases hc with rfl | rfl <;> rfl

theorem passes_cons {c : Char} (h : isMark c = false) (rest : List Char) :
    Passes (c :: rest) rest := by
  intro opened
  simp only [isMark, Bool.or_eq_false_iff, decide_eq_false_iff_not] at h
  obtain ⟨⟨⟨⟨hquote, hopen⟩, hclose⟩, hopen'⟩, hclose'⟩ := h
  rw [deepest, if_neg hquote, if_neg (not_or.2 ⟨hopen, hopen'⟩),
    if_neg (not_or.2 ⟨hclose, hclose'⟩)]

theorem passes_dropWhile {p : Char → Bool} (h : ∀ c, p c = true → isMark c = false)
    (cs : List Char) : Passes cs (cs.dropWhile p) := by
  induction cs with
  | nil => exact .refl []
  | cons c cs ih =>
    by_cases hc : p c = true
    · rw [List.dropWhile_cons_of_pos hc]
      exact (passes_cons (h c hc) cs).trans ih
    · rw [List.dropWhile_cons_of_neg hc]
      exact .refl (c :: cs)

theorem passes_skipBlanks (cs : List Char) : Passes cs (skipBlanks cs) :=
  passes_dropWhile (fun _ => isMark_of_isBlank) cs

theorem passes_of_skipBlanks {cs rest : List Char} (h : skipBlanks cs = rest) : Passes cs rest :=
  h ▸ passes_skipBlanks cs

theorem passes_of_readWord {word cs rest : List Char} (hword : ∀ w ∈ word, isMark w = false)
    (h : readWord word cs = .ok rest) : Passes cs rest := by
  induction word generalizing cs with
  | nil =>
    cases h
    exact .refl rest
  | cons w word ih =>
    cases cs with
    | nil => cases h
    | cons c cs =>
      rw [readWord] at h
      by_cases hc : c = w
      · rw [if_pos hc] at h
        have hfirst := passes_cons (hword w List.mem_cons_self) cs
        rw [hc]
        exact hfirst.trans (ih (fun w hw => hword w (List.mem_cons_of_mem _ hw)) h)
      · rw [if_neg hc] at h
        cases h

/-! ### Numbers -/

/-- The reader takes no brackets off a text. -/
def Passing (read : List Char → Except Fault (α × List Char)) : Prop :=
  ∀ cs x rest, read cs = .ok (x, rest) → Passes cs rest

namespace Passing

/-- One reader after the other. -/
theorem bind {read : List Char → Except Fault (α × List Char)}
    {next : α × List Char → Except Fault (β × List Char)} (h : Passing read)
    (hnext : ∀ x, Passing fun cs => next (x, cs)) : Passing fun cs => read cs >>= next := by
  intro cs y rest heq
  obtain ⟨⟨x, mid⟩, hread, heq⟩ := bind_eq_ok_iff.1 heq
  exact (h cs x mid hread).trans (hnext x mid y rest heq)

/-- A computation on what has been read. -/
theorem give (x : Except Fault α) : Passing fun cs => x >>= fun a => .ok (a, cs) := by
  intro cs a rest heq
  obtain ⟨_, _, heq⟩ := bind_eq_ok_iff.1 heq
  cases heq
  exact .refl cs

end Passing

theorem passing_readDigits : Passing readDigits := by
  intro cs digits rest h
  cases cs with
  | nil => cases h
  | cons c cs =>
    rw [readDigits] at h
    by_cases hc : c.isDigit = true
    · rw [if_pos hc] at h
      cases h
      exact passes_dropWhile (fun _ => isMark_of_isDigit) (c :: cs)
    · rw [if_neg hc] at h
      cases h

theorem passing_readWhole : Passing readWhole := by
  refine passing_readDigits.bind fun digits => ?_
  by_cases hzero : digits.head? = some '0' ∧ 1 < digits.length
  · simp only [if_pos hzero]
    exact .give (.error .invalidNumber)
  · simp only [if_neg hzero]
    exact .give (.ok digits)

theorem passing_readFraction : Passing readFraction := by
  intro cs fraction rest h
  unfold readFraction at h
  split at h
  · rename_i cs
    have hpart : Passing fun cs => readDigits cs >>= fun p => .ok (some p.1, p.2) :=
      passing_readDigits.bind fun digits => .give (.ok (some digits))
    exact (passes_cons rfl cs).trans (hpart cs fraction rest h)
  · cases h
    exact .refl _

theorem passes_readSign (cs : List Char) : Passes cs (readSign cs).2 := by
  unfold readSign
  split
  · exact passes_cons rfl _
  · exact passes_cons rfl _
  · exact .refl cs

theorem passing_readExponent : Passing readExponent := by
  intro cs exponent rest h
  cases cs with
  | nil =>
    cases h
    exact .refl []
  | cons c cs =>
    rw [readExponent] at h
    by_cases hletter : c = 'e' ∨ c = 'E'
    · rw [if_pos hletter] at h
      obtain ⟨⟨digits, left⟩, hdigits, h⟩ := bind_eq_ok_iff.1 h
      cases h
      have hmark : isMark c = false := by rcases hletter with rfl | rfl <;> rfl
      exact (passes_cons hmark cs).trans
        ((passes_readSign cs).trans (passing_readDigits _ digits rest hdigits))
    · rw [if_neg hletter] at h
      cases h
      exact .refl _

theorem passing_readUnsigned (negative : Bool) : Passing (readUnsigned negative) := by
  refine passing_readWhole.bind fun whole => passing_readFraction.bind fun fraction =>
    passing_readExponent.bind fun exponent => ?_
  by_cases hinteger : fraction.isNone = true ∧ exponent.isNone = true
  · simp only [if_pos hinteger]
    exact .give _
  · simp only [if_neg hinteger]
    exact .give _

theorem passing_readNumber : Passing readNumber := by
  intro cs n rest h
  unfold readNumber at h
  split at h
  · exact (passes_cons rfl _).trans (passing_readUnsigned true _ n rest h)
  · exact passing_readUnsigned false _ n rest h

/-! ### Strings -/

theorem ne_of_hexValue? {c : Char} {n : Nat} (h : hexValue? c = some n) : c ≠ '"' ∧ c ≠ '\\' := by
  constructor
  · rintro rfl
    rw [show hexValue? '"' = none from rfl] at h
    cases h
  · rintro rfl
    rw [show hexValue? '\\' = none from rfl] at h
    cases h

theorem deepest_inside {c : Char} (h : c ≠ '"' ∧ c ≠ '\\') (opened : Nat) (cs : List Char) :
    deepest .inside opened (c :: cs) = deepest .inside opened cs := by
  rw [deepest, if_neg h.1, if_neg h.2]

theorem deepest_of_readQuad {cs rest : List Char} {n : Nat} (h : readQuad cs = .ok (n, rest))
    (opened : Nat) : deepest .inside opened cs = deepest .inside opened rest := by
  unfold readQuad at h
  split at h
  · split at h
    · rename_i ha hb hc hd
      cases h
      rw [deepest_inside (ne_of_hexValue? ha), deepest_inside (ne_of_hexValue? hb),
        deepest_inside (ne_of_hexValue? hc), deepest_inside (ne_of_hexValue? hd)]
    · cases h
  · cases h

theorem deepest_of_readTrailing {cs rest : List Char} {n : Nat}
    (h : readTrailing cs = .ok (n, rest)) (opened : Nat) :
    deepest .inside opened cs = deepest .inside opened rest := by
  unfold readTrailing at h
  split at h
  · cases h
  · cases h
  · rename_i cs
    obtain ⟨⟨m, left⟩, hquad, h⟩ := bind_eq_ok_iff.1 h
    have hleft : left = rest := by
      dsimp only at h
      split at h
      · cases h
        rfl
      · cases h
    rw [← hleft]
    exact deepest_of_readQuad hquad opened
  · cases h

theorem deepest_of_readCodePoint {cs rest : List Char} {c : Char}
    (h : readCodePoint cs = .ok (c, rest)) (opened : Nat) :
    deepest .inside opened cs = deepest .inside opened rest := by
  obtain ⟨⟨n, mid⟩, hquad, h⟩ := bind_eq_ok_iff.1 h
  rw [deepest_of_readQuad hquad]
  dsimp only at h
  split at h
  · cases h
  · split at h
    · obtain ⟨⟨m, left⟩, htrailing, h⟩ := bind_eq_ok_iff.1 h
      rw [← (Prod.mk.inj (Except.ok.inj h)).2]
      exact deepest_of_readTrailing htrailing opened
    · rw [← (Prod.mk.inj (Except.ok.inj h)).2]

/-- Behind an escape the string goes on. -/
theorem deepest_of_readEscape {cs rest : List Char} {c : Char} (h : readEscape cs = .ok (c, rest))
    (opened : Nat) : deepest .escaped opened cs = deepest .inside opened rest := by
  cases cs with
  | nil => cases h
  | cons d cs =>
    rw [readEscape] at h
    by_cases hletter : d = 'u'
    · rw [if_pos hletter] at h
      exact deepest_of_readCodePoint h opened
    · rw [if_neg hletter] at h
      split at h
      · cases h
        rfl
      · cases h

/-- Behind the closing quote the text goes on outside. -/
theorem deepest_of_readCharacters {before cs rest : List Char} {s : String}
    (h : readCharacters before cs = .ok (s, rest)) (opened : Nat) :
    deepest .inside opened cs = deepest .outside opened rest := by
  fun_induction readCharacters before cs with
  | case1 => cases h
  | case2 before cs =>
    cases h
    rfl
  | case3 => cases h
  | case4 before cs d mid hescape _ ih =>
    rw [← ih h, ← deepest_of_readEscape hescape]
    rfl
  | case5 => cases h
  | case6 before c cs hquote hslash _ ih =>
    rw [deepest_inside ⟨hquote, hslash⟩, ih h]

theorem passes_of_readString {cs rest : List Char} {s : String} (h : readString cs = .ok (s, rest)) :
    Passes ('"' :: cs) rest := deepest_of_readCharacters h

end AccessGraph.Json
