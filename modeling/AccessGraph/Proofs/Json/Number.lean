import AccessGraph.Json.Printer
import AccessGraph.Json.Scan
import Mathlib.Data.List.Basic
import Mathlib.Data.List.TakeWhile
/-!
# Numbers are read back

A number ends where its text does, so that a reader of numbers has to look at what follows. It goes
on as it does at the end of a text, unless what follows could belong to the number.

* `Json.EndsNumber` : what may follow a number.
* `Json.Extends` : a reader goes on in the same way where something follows that ends a number.
* `Json.extends_readNumber` : **the reader of numbers is one of these.**
* `Json.Number.ReadsBack` : a number that is read back from its text.
* `Json.readsBack_int` : **integers of 64 bits, signed or unsigned, are read back.**
* `Json.readNumber_write` : a number that is read back from its text is read back in front of more.
-/

namespace AccessGraph.Json

variable {α β : Type}

/-- A character that can stand in a number behind its first one, the sign of an exponent apart. -/
def continuesNumber (c : Char) : Bool := c.isDigit || c = '.' || c = 'e' || c = 'E'

/-- A number that stands in front of these characters ends there. -/
def EndsNumber (rest : List Char) : Prop := ∀ c, rest.head? = some c → continuesNumber c = false

theorem endsNumber_nil : EndsNumber [] := nofun

theorem endsNumber_cons {c : Char} {rest : List Char} (h : continuesNumber c = false) :
    EndsNumber (c :: rest) := by
  intro d hd
  obtain rfl : c = d := Option.some.inj hd
  exact h

/-- The reader does the same where something follows that ends a number. -/
def Extends (read : List Char → Except Fault (α × List Char)) : Prop :=
  ∀ cs x left, read cs = .ok (x, left) →
    ∀ rest, EndsNumber rest → read (cs ++ rest) = .ok (x, left ++ rest)

namespace Extends

/-- One reader after the other. -/
theorem bind {read : List Char → Except Fault (α × List Char)}
    {next : α × List Char → Except Fault (β × List Char)} (h : Extends read)
    (hnext : ∀ x, Extends fun cs => next (x, cs)) : Extends fun cs => read cs >>= next := by
  intro cs y left heq rest hrest
  replace heq : (read cs >>= next) = .ok (y, left) := heq
  show (read (cs ++ rest) >>= next) = .ok (y, left ++ rest)
  cases hread : read cs with
  | error fault =>
    rw [hread] at heq
    cases heq
  | ok p =>
    rw [hread] at heq
    rw [h cs p.1 p.2 hread rest hrest]
    exact hnext p.1 p.2 y left heq rest hrest

/-- A computation on what has been read. -/
theorem give (x : Except Fault α) : Extends fun cs => x >>= fun a => .ok (a, cs) := by
  intro cs a left heq rest _
  cases x with
  | error fault => cases heq
  | ok b =>
    cases heq
    rfl

end Extends

/-! ### The parts of a number -/

/-- The digits end where those of the first part do. -/
theorem span_append {p : Char → Bool} (cs : List Char) {rest : List Char}
    (h : ∀ c, rest.head? = some c → p c = false) :
    (cs ++ rest).takeWhile p = cs.takeWhile p ∧
      (cs ++ rest).dropWhile p = cs.dropWhile p ++ rest := by
  induction cs with
  | nil =>
    cases rest with
    | nil => simp
    | cons c rest => simp [h c rfl]
  | cons c cs ih =>
    by_cases hc : p c = true
    · simp [hc, ih]
    · simp [hc]

theorem extends_readDigits : Extends readDigits := by
  intro cs digits left heq rest hrest
  cases cs with
  | nil => cases heq
  | cons c cs =>
    have hstop : ∀ d, rest.head? = some d → d.isDigit = false := by
      intro d hd
      have := hrest d hd
      simp only [continuesNumber, Bool.or_eq_false_iff] at this
      exact this.1.1.1
    rw [readDigits] at heq
    rw [List.cons_append, readDigits]
    by_cases hc : c.isDigit = true
    · rw [if_pos hc] at heq ⊢
      cases heq
      obtain ⟨htake, hdrop⟩ := span_append (c :: cs) hstop
      rw [List.cons_append] at htake hdrop
      rw [htake, hdrop]
    · rw [if_neg hc] at heq
      cases heq

theorem extends_readWhole : Extends readWhole := by
  refine extends_readDigits.bind fun digits => ?_
  by_cases hzero : digits.head? = some '0' ∧ 1 < digits.length
  · simp only [if_pos hzero]
    exact .give (.error .invalidNumber)
  · simp only [if_neg hzero]
    exact .give (.ok digits)

/-- There is no fraction without a point. -/
theorem readFraction_of_ne {cs : List Char} (h : cs.head? ≠ some '.') :
    readFraction cs = .ok (none, cs) := by
  cases cs with
  | nil => rfl
  | cons c cs =>
    have hc : c ≠ '.' := fun heq => h (heq ▸ rfl)
    rw [readFraction]
    exact fun cs heq => hc (List.cons.inj heq).1

theorem extends_readFraction : Extends readFraction := by
  intro cs fraction left heq rest hrest
  by_cases hpoint : cs.head? = some '.'
  · obtain ⟨cs, rfl⟩ : ∃ after, cs = '.' :: after := by
      cases cs with
      | nil => cases hpoint
      | cons c cs => exact ⟨cs, by rw [Option.some.inj hpoint]⟩
    have hpart : Extends fun cs => readFraction ('.' :: cs) :=
      extends_readDigits.bind fun digits => .give (.ok (some digits))
    exact hpart cs fraction left heq rest hrest
  · -- nothing is read, and what follows brings no point either
    rw [readFraction_of_ne hpoint] at heq
    cases heq
    refine readFraction_of_ne fun hhead => ?_
    cases cs with
    | nil => exact absurd (hrest '.' hhead) (by decide)
    | cons c cs => exact hpoint hhead

/-- There is no exponent without its letter. -/
theorem readExponent_of_ne {cs : List Char} (h : ∀ c, cs.head? = some c → ¬ (c = 'e' ∨ c = 'E')) :
    readExponent cs = .ok (none, cs) := by
  cases cs with
  | nil => rfl
  | cons c cs => rw [readExponent, if_neg (h c rfl)]

/-- The sign of an exponent is read in the same way where more follows. -/
theorem readSign_append {cs : List Char} (h : cs ≠ []) (rest : List Char) :
    readSign (cs ++ rest) = ((readSign cs).1, (readSign cs).2 ++ rest) := by
  cases cs with
  | nil => exact absurd rfl h
  | cons c cs =>
    by_cases hminus : c = '-'
    · rw [hminus]
      rfl
    by_cases hplus : c = '+'
    · rw [hplus]
      rfl
    have hnone : ∀ cs, readSign (c :: cs) = (false, c :: cs) := by
      intro cs
      unfold readSign
      split
      · rename_i heq
        exact absurd (List.cons.inj heq).1 hminus
      · rename_i heq
        exact absurd (List.cons.inj heq).1 hplus
      · rfl
    rw [List.cons_append, hnone, hnone]
    rfl

/-- The integer of some digits with a sign. -/
def signed (negative : Bool) (digits : List Char) : Int :=
  if negative then -ofDigits digits else ofDigits digits

/-- The digits of an exponent behind its sign. -/
theorem extends_readSigned :
    Extends fun cs => readDigits (readSign cs).2 >>= fun p =>
      .ok (some (signed (readSign cs).1 p.1), p.2) := by
  intro cs exponent left heq rest hrest
  have hdigits : ∀ negative : Bool, Extends fun cs => readDigits cs >>= fun p =>
      .ok (some (signed negative p.1), p.2) := fun negative =>
    extends_readDigits.bind fun digits => .give (.ok (some (signed negative digits)))
  have hne : cs ≠ [] := by
    rintro rfl
    cases heq
  simp only [readSign_append hne]
  exact hdigits (readSign cs).1 (readSign cs).2 exponent left heq rest hrest

theorem extends_readExponent : Extends readExponent := by
  intro cs exponent left heq rest hrest
  cases cs with
  | nil =>
    -- the number is at its end, and what follows brings no letter
    cases heq
    refine readExponent_of_ne fun c hc hletter => ?_
    have hends := hrest c hc
    rcases hletter with rfl | rfl
    · exact absurd hends (by decide)
    · exact absurd hends (by decide)
  | cons c cs =>
    by_cases hletter : c = 'e' ∨ c = 'E'
    · rw [readExponent, if_pos hletter] at heq
      rw [List.cons_append, readExponent, if_pos hletter]
      exact extends_readSigned cs exponent left heq rest hrest
    · rw [readExponent, if_neg hletter] at heq
      rw [List.cons_append, readExponent, if_neg hletter]
      cases heq
      rfl

/-! ### Whole numbers -/

theorem extends_readUnsigned (negative : Bool) : Extends (readUnsigned negative) := by
  refine extends_readWhole.bind fun whole => extends_readFraction.bind fun fraction =>
    extends_readExponent.bind fun exponent => ?_
  by_cases hinteger : fraction.isNone = true ∧ exponent.isNone = true
  · simp only [if_pos hinteger]
    exact .give _
  · simp only [if_neg hinteger]
    exact .give _

theorem readNumber_of_ne {c : Char} (h : c ≠ '-') (cs : List Char) :
    readNumber (c :: cs) = readUnsigned false (c :: cs) := by
  rw [readNumber]
  exact fun cs heq => h (List.cons.inj heq).1

/-- **The reader of numbers does the same where something follows that ends a number.** -/
theorem extends_readNumber : Extends readNumber := by
  intro cs n left heq rest hrest
  cases cs with
  | nil => cases heq
  | cons c cs =>
    by_cases hminus : c = '-'
    · rw [hminus] at heq ⊢
      exact extends_readUnsigned true cs n left heq rest hrest
    · rw [readNumber_of_ne hminus] at heq
      rw [List.cons_append, readNumber_of_ne hminus]
      exact extends_readUnsigned false (c :: cs) n left heq rest hrest

/-- A number is read back from its text. -/
def Number.ReadsBack (n : Number) : Prop := readNumber n.write = .ok (n, [])

/-- A number that is read back from its text is read back in front of more. -/
theorem readNumber_write {n : Number} (h : n.ReadsBack) {rest : List Char}
    (hrest : EndsNumber rest) : readNumber (n.write ++ rest) = .ok (n, rest) :=
  extends_readNumber n.write n [] h rest hrest

/-- The text of a number that is read back starts with a sign or a digit. -/
theorem Number.ReadsBack.exists_first {n : Number} (h : n.ReadsBack) :
    ∃ c cs, n.write = c :: cs ∧ (c = '-' ∨ c.isDigit = true) := by
  unfold ReadsBack at h
  cases hwrite : n.write with
  | nil =>
    rw [hwrite] at h
    cases h
  | cons c cs =>
    refine ⟨c, cs, rfl, ?_⟩
    by_cases hminus : c = '-'
    · exact .inl hminus
    · by_cases hdigit : c.isDigit = true
      · exact .inr hdigit
      · rw [hwrite, readNumber_of_ne hminus, readUnsigned, readWhole, readDigits,
          if_neg hdigit] at h
        cases h

/-! ### Integers -/

/-- The digits of a positive number do not start with a zero. -/
theorem head?_toDigits_ne {n : Nat} (h : 0 < n) : (Nat.toDigits 10 n).head? ≠ some '0' := by
  induction n using Nat.strongRecOn with
  | ind n ih =>
    by_cases hsmall : n < 10
    · have hall : ∀ n, n < 10 → 0 < n → [Nat.digitChar n].head? ≠ some '0' := by decide
      rw [Nat.toDigits_of_lt_base hsmall]
      exact hall n hsmall h
    · -- the first digit is that of the number without its last digit
      rw [Nat.toDigits_of_base_le (by omega) (by omega),
        List.head?_append_of_ne_nil _ Nat.toDigits_ne_nil]
      exact ih (n / 10) (by omega) (by omega)

theorem readWhole_toDigits (n : Nat) :
    readWhole (Nat.toDigits 10 n) = .ok (Nat.toDigits 10 n, []) := by
  have hdigits : ∀ c ∈ Nat.toDigits 10 n, c.isDigit = true := fun c hc =>
    Nat.isDigit_of_mem_toDigits (by decide) (by decide) hc
  have hread : readDigits (Nat.toDigits 10 n) = .ok (Nat.toDigits 10 n, []) := by
    cases hcs : Nat.toDigits 10 n with
    | nil => exact absurd hcs Nat.toDigits_ne_nil
    | cons c cs =>
      rw [hcs] at hdigits
      rw [readDigits, if_pos (hdigits c List.mem_cons_self), List.takeWhile_eq_self_iff.2 hdigits,
        List.dropWhile_eq_nil_iff.2 hdigits]
  have hzero : ¬ ((Nat.toDigits 10 n).head? = some '0' ∧ 1 < (Nat.toDigits 10 n).length) := by
    rintro ⟨hhead, hlength⟩
    cases n with
    | zero => simp at hlength
    | succ n => exact head?_toDigits_ne (Nat.succ_pos n) hhead
  rw [readWhole, hread]
  exact if_neg hzero

theorem readUnsigned_toDigits (negative : Bool) (n : Nat) :
    readUnsigned negative (Nat.toDigits 10 n) =
      (integer negative (Nat.toDigits 10 n) >>= fun x => .ok (x, [])) := by
  rw [readUnsigned, readWhole_toDigits]
  rfl

/-- An integer below zero that fits into 64 bits is exact. -/
theorem integer_true {n : Nat} (h : 0 < n ∧ n ≤ Int64.size / 2) :
    integer true (Nat.toDigits 10 n) = .ok (.int (-n)) := by
  rw [integer, ofDigits, Nat.ofDigitChars_ten_toDigits]
  exact if_pos h

/-- An integer from zero on that fits into 64 bits is exact. -/
theorem integer_false {n : Nat} (h : n < UInt64.size) :
    integer false (Nat.toDigits 10 n) = .ok (.int n) := by
  rw [integer, ofDigits, Nat.ofDigitChars_ten_toDigits]
  exact if_pos h

/-- **Integers of 64 bits, signed or unsigned, are read back.** -/
theorem readsBack_int {n : Int} (hlow : -(Int64.size / 2 : Nat) ≤ n) (hhigh : n < UInt64.size) :
    (Number.int n).ReadsBack := by
  show readNumber (writeInt n) = .ok (.int n, [])
  unfold writeInt
  by_cases hneg : n < 0
  · have hvalue : -(n.natAbs : Int) = n := by omega
    have hrange : 0 < n.natAbs ∧ n.natAbs ≤ Int64.size / 2 := by omega
    rw [if_pos hneg]
    show readUnsigned true (Nat.toDigits 10 n.natAbs) = _
    rw [readUnsigned_toDigits, integer_true hrange, hvalue]
    rfl
  · have hvalue : (n.natAbs : Int) = n := by omega
    have hrange : n.natAbs < UInt64.size := by omega
    -- the text starts with a digit, so that no sign is read
    have hnumber : readNumber (Nat.toDigits 10 n.natAbs) =
        readUnsigned false (Nat.toDigits 10 n.natAbs) := by
      cases hcs : Nat.toDigits 10 n.natAbs with
      | nil => exact absurd hcs Nat.toDigits_ne_nil
      | cons c cs =>
        refine readNumber_of_ne (fun hminus => ?_) cs
        have hdigit : c.isDigit = true :=
          Nat.isDigit_of_mem_toDigits (by decide) (by decide) (hcs ▸ List.mem_cons_self)
        rw [hminus] at hdigit
        exact absurd hdigit (by decide)
    rw [if_neg hneg, hnumber, readUnsigned_toDigits, integer_false hrange, hvalue]
    rfl

end AccessGraph.Json
