import AccessGraph.Proofs.Json.Number
import AccessGraph.Proofs.Json.String
import AccessGraph.Proofs.Result
/-!
# What is taken off a text stands for itself

A reader takes a part off the front of a text. The part is read in the same way in front of something
else, although a reader of numbers looks at the character behind the part: whatever ends a number may
follow, and whatever begins as before.

* `Json.Cuts` : a reader takes off a part that stands for itself.
* `Json.CutsFreely` : it stands for itself whatever follows.
* `Json.cuts_readNumber`, `Json.cutsFreely_readString`, `Json.cuts_readScalar` : **numbers, strings and
  all other values without brackets stand for themselves.**
-/

namespace AccessGraph.Json

variable {α β : Type}

/-- The reader takes off a part that stands for itself, in front of what ends a number and in front of
what begins like that which has followed. -/
def Cuts (read : List Char → Except Fault (α × List Char)) : Prop :=
  ∀ cs x rest, read cs = .ok (x, rest) → ∃ part, cs = part ++ rest ∧
    ∀ more, EndsNumber more ∨ more.head? = rest.head? → read (part ++ more) = .ok (x, more)

namespace Cuts

/-- One reader after the other. -/
theorem bind {read : List Char → Except Fault (α × List Char)}
    {next : α × List Char → Except Fault (β × List Char)} (h : Cuts read)
    (hnext : ∀ x, Cuts fun cs => next (x, cs)) : Cuts fun cs => read cs >>= next := by
  intro cs y rest heq
  obtain ⟨⟨x, mid⟩, hread, heq⟩ := bind_eq_ok_iff.1 heq
  obtain ⟨first, hcs, hfirst⟩ := h cs x mid hread
  obtain ⟨second, rfl, hsecond⟩ := hnext x mid y rest heq
  refine ⟨first ++ second, by rw [hcs, List.append_assoc], fun more hmore => ?_⟩
  have hmid : EndsNumber (second ++ more) ∨ (second ++ more).head? = (second ++ rest).head? := by
    cases second with
    | nil => exact hmore
    | cons c second => exact .inr rfl
  rw [List.append_assoc]
  exact bind_eq_ok_iff.2 ⟨(x, second ++ more), hfirst _ hmid, hsecond more hmore⟩

/-- A computation on what has been read. -/
theorem give (x : Except Fault α) : Cuts fun cs => x >>= fun a => .ok (a, cs) := by
  intro cs a rest heq
  obtain ⟨b, hb, heq⟩ := bind_eq_ok_iff.1 heq
  cases heq
  exact ⟨[], rfl, fun more _ => bind_eq_ok_iff.2 ⟨a, hb, rfl⟩⟩

/-- A part that is not empty stands for itself behind its first character. -/
theorem behind {read : List Char → Except Fault (α × List Char)} (h : Cuts read)
    (hempty : ∀ x, read [] ≠ .ok (x, [])) (c : Char) : Cuts fun cs => read (c :: cs) := by
  intro cs x rest heq
  obtain ⟨part, hcs, hpart⟩ := h (c :: cs) x rest heq
  cases part with
  | nil => exact absurd (hpart [] (.inl endsNumber_nil)) (hempty x)
  | cons d part =>
    obtain ⟨rfl, rfl⟩ := List.cons.inj hcs
    exact ⟨part, rfl, hpart⟩

/-- A part with another character in front. -/
theorem cons {read : List Char → Except Fault (α × List Char)} {c : Char}
    (h : Cuts fun cs => read (c :: cs)) {cs rest : List Char} {x : α}
    (heq : read (c :: cs) = .ok (x, rest)) : ∃ part, c :: cs = part ++ rest ∧
      ∀ more, EndsNumber more ∨ more.head? = rest.head? → read (part ++ more) = .ok (x, more) := by
  obtain ⟨part, rfl, hpart⟩ := h cs x rest heq
  exact ⟨c :: part, rfl, hpart⟩

end Cuts

/-- The reader takes off a part that stands for itself in front of anything. -/
def CutsFreely (read : List Char → Except Fault (α × List Char)) : Prop :=
  ∀ cs x rest, read cs = .ok (x, rest) →
    ∃ part, cs = part ++ rest ∧ ∀ more, read (part ++ more) = .ok (x, more)

namespace CutsFreely

theorem cuts {read : List Char → Except Fault (α × List Char)} (h : CutsFreely read) :
    Cuts read := by
  intro cs x rest heq
  obtain ⟨part, hcs, hpart⟩ := h cs x rest heq
  exact ⟨part, hcs, fun more _ => hpart more⟩

/-- One reader after the other. -/
theorem bind {read : List Char → Except Fault (α × List Char)}
    {next : α × List Char → Except Fault (β × List Char)} (h : CutsFreely read)
    (hnext : ∀ x, CutsFreely fun cs => next (x, cs)) : CutsFreely fun cs => read cs >>= next := by
  intro cs y rest heq
  obtain ⟨⟨x, mid⟩, hread, heq⟩ := bind_eq_ok_iff.1 heq
  obtain ⟨first, hcs, hfirst⟩ := h cs x mid hread
  obtain ⟨second, rfl, hsecond⟩ := hnext x mid y rest heq
  refine ⟨first ++ second, by rw [hcs, List.append_assoc], fun more => ?_⟩
  rw [List.append_assoc]
  exact bind_eq_ok_iff.2 ⟨(x, second ++ more), hfirst _, hsecond more⟩

/-- A computation on what has been read. -/
theorem give (x : Except Fault α) : CutsFreely fun cs => x >>= fun a => .ok (a, cs) := by
  intro cs a rest heq
  obtain ⟨b, hb, heq⟩ := bind_eq_ok_iff.1 heq
  cases heq
  exact ⟨[], rfl, fun more => bind_eq_ok_iff.2 ⟨a, hb, rfl⟩⟩

/-- More characters in front. -/
theorem append {read : List Char → Except Fault (α × List Char)} (front : List Char)
    (h : CutsFreely fun cs => read (front ++ cs)) {cs rest : List Char} {x : α}
    (heq : read (front ++ cs) = .ok (x, rest)) :
    ∃ part, front ++ cs = part ++ rest ∧ ∀ more, read (part ++ more) = .ok (x, more) := by
  obtain ⟨part, rfl, hpart⟩ := h cs x rest heq
  refine ⟨front ++ part, (List.append_assoc _ _ _).symm, fun more => ?_⟩
  rw [List.append_assoc]
  exact hpart more

end CutsFreely

/-! ### Numbers -/

theorem cuts_readDigits : Cuts readDigits := by
  intro cs digits rest heq
  cases cs with
  | nil => cases heq
  | cons c cs =>
    rw [readDigits] at heq
    by_cases hc : c.isDigit = true
    · rw [if_pos hc] at heq
      cases heq
      refine ⟨(c :: cs).takeWhile Char.isDigit, List.takeWhile_append_dropWhile.symm, ?_⟩
      intro more hmore
      have hstop : ∀ d, more.head? = some d → d.isDigit = false := by
        intro d hd
        rcases hmore with hends | hhead
        · have hends := hends d hd
          simp only [continuesNumber, Bool.or_eq_false_iff] at hends
          exact hends.1.1.1
        · have hnot := List.head?_dropWhile_not Char.isDigit (c :: cs)
          rwa [← hhead, hd] at hnot
      -- the digits are all of the part, and what follows does not go on with them
      have hall : ∀ d ∈ (c :: cs).takeWhile Char.isDigit, d.isDigit = true := fun d hd =>
        List.mem_takeWhile_imp hd
      obtain ⟨htake, hdrop⟩ := span_append _ hstop
      rw [List.takeWhile_eq_self_iff.2 hall] at htake
      rw [List.dropWhile_eq_nil_iff.2 hall, List.nil_append] at hdrop
      rw [List.takeWhile_cons_of_pos hc, List.cons_append] at htake hdrop ⊢
      rw [readDigits, if_pos hc, htake, hdrop]
    · rw [if_neg hc] at heq
      cases heq

theorem cuts_readWhole : Cuts readWhole := by
  refine cuts_readDigits.bind fun digits => ?_
  by_cases hzero : digits.head? = some '0' ∧ 1 < digits.length
  · simp only [if_pos hzero]
    exact .give (.error .invalidNumber)
  · simp only [if_neg hzero]
    exact .give (.ok digits)

/-- What comes next has no other first character than before, if that would continue a number. -/
theorem head?_ne_of_ends {more rest : List Char} {c : Char} (hc : continuesNumber c = true)
    (hmore : EndsNumber more ∨ more.head? = rest.head?) (hrest : rest.head? ≠ some c) :
    more.head? ≠ some c := by
  intro hhead
  rcases hmore with hends | heq
  · rw [hends c hhead] at hc
    cases hc
  · exact hrest (heq ▸ hhead)

theorem cuts_readFraction : Cuts readFraction := by
  intro cs fraction rest heq
  by_cases hpoint : cs.head? = some '.'
  · obtain ⟨cs, rfl⟩ : ∃ after, cs = '.' :: after := by
      cases cs with
      | nil => cases hpoint
      | cons c cs => exact ⟨cs, by rw [Option.some.inj hpoint]⟩
    have hpart : Cuts fun cs => readFraction ('.' :: cs) :=
      cuts_readDigits.bind fun digits => .give (.ok (some digits))
    exact hpart.cons heq
  · rw [readFraction_of_ne hpoint] at heq
    cases heq
    exact ⟨[], rfl, fun more hmore => readFraction_of_ne (head?_ne_of_ends rfl hmore hpoint)⟩

/-- The sign of an exponent stands in front of what is left. -/
theorem exists_sign (cs : List Char) : ∃ sign, cs = sign ++ (readSign cs).2 := by
  unfold readSign
  split
  · exact ⟨['-'], rfl⟩
  · exact ⟨['+'], rfl⟩
  · exact ⟨[], rfl⟩

/-- The digits of an exponent behind its sign. There is at least one, so that no sign is taken for it
from what follows. -/
theorem cuts_readSigned :
    Cuts fun cs => readDigits (readSign cs).2 >>= fun p =>
      .ok (some (signed (readSign cs).1 p.1), p.2) := by
  intro cs exponent rest heq
  have hdigits : Cuts fun cs' => readDigits cs' >>= fun p =>
      .ok (some (signed (readSign cs).1 p.1), p.2) :=
    cuts_readDigits.bind fun digits => .give (.ok (some (signed (readSign cs).1 digits)))
  obtain ⟨part, hleft, hpart⟩ := hdigits (readSign cs).2 exponent rest heq
  obtain ⟨sign, hsign⟩ := exists_sign cs
  have hne : sign ++ part ≠ [] := by
    intro hnil
    obtain rfl := (List.append_eq_nil_iff.1 hnil).2
    have hnone := hpart [] (.inl endsNumber_nil)
    cases hnone
  have hcs : cs = (sign ++ part) ++ rest := by rw [List.append_assoc, ← hleft, ← hsign]
  have hall := readSign_append hne rest
  rw [← hcs] at hall
  have hrest : (readSign (sign ++ part)).2 = part := by
    have htail := congrArg Prod.snd hall
    rw [hleft] at htail
    exact (List.append_cancel_right htail).symm
  refine ⟨sign ++ part, hcs, fun more hmore => ?_⟩
  have hpart := hpart more hmore
  rw [hall] at hpart
  simp only [readSign_append hne more, hrest]
  exact hpart

theorem cuts_readExponent : Cuts readExponent := by
  intro cs exponent rest heq
  by_cases hletter : ∃ c, cs.head? = some c ∧ (c = 'e' ∨ c = 'E')
  · obtain ⟨c, hhead, hc⟩ := hletter
    obtain ⟨cs, rfl⟩ : ∃ after, cs = c :: after := by
      cases cs with
      | nil => cases hhead
      | cons d cs => exact ⟨cs, by rw [Option.some.inj hhead]⟩
    have hpart : Cuts fun cs => readExponent (c :: cs) := by
      simp only [readExponent, if_pos hc]
      exact cuts_readSigned
    exact hpart.cons heq
  · have hnone : ∀ c, cs.head? = some c → ¬ (c = 'e' ∨ c = 'E') := fun c hhead hc =>
      hletter ⟨c, hhead, hc⟩
    rw [readExponent_of_ne hnone] at heq
    cases heq
    refine ⟨[], rfl, fun more hmore => readExponent_of_ne fun c hhead hc => ?_⟩
    have hcontinues : continuesNumber c = true := by rcases hc with rfl | rfl <;> rfl
    exact head?_ne_of_ends hcontinues hmore (fun hrest => hnone c hrest hc) hhead

theorem cuts_readUnsigned (negative : Bool) : Cuts (readUnsigned negative) := by
  refine cuts_readWhole.bind fun whole => cuts_readFraction.bind fun fraction =>
    cuts_readExponent.bind fun exponent => ?_
  by_cases hinteger : fraction.isNone = true ∧ exponent.isNone = true
  · simp only [if_pos hinteger]
    exact .give _
  · simp only [if_neg hinteger]
    exact .give _

/-- **Numbers stand for themselves**, behind their first character as well. -/
theorem cuts_readNumber (c : Char) : Cuts fun cs => readNumber (c :: cs) := by
  by_cases hminus : c = '-'
  · subst hminus
    exact cuts_readUnsigned true
  · simp only [readNumber_of_ne hminus]
    exact (cuts_readUnsigned false).behind (by rintro n ⟨⟩) c

/-! ### Words and strings -/

/-- A word is taken off if it is there. -/
theorem readWord_eq_ok_iff {word cs rest : List Char} :
    readWord word cs = .ok rest ↔ cs = word ++ rest := by
  induction word generalizing cs with
  | nil => simp [readWord]
  | cons w word ih =>
    cases cs with
    | nil => simp [readWord]
    | cons c cs =>
      by_cases hc : c = w
      · simp [readWord, hc, ih]
      · simp [readWord, hc]

theorem cutsFreely_readWord (word : List Char) (v : α) :
    CutsFreely fun cs => readWord word cs >>= fun rest => .ok (v, rest) := by
  intro cs x rest heq
  obtain ⟨left, hword, heq⟩ := bind_eq_ok_iff.1 heq
  cases heq
  exact ⟨word, readWord_eq_ok_iff.1 hword, fun more =>
    bind_eq_ok_iff.2 ⟨more, readWord_eq_ok_iff.2 rfl, rfl⟩⟩

theorem cutsFreely_readQuad : CutsFreely readQuad := by
  intro cs n rest heq
  unfold readQuad at heq
  split at heq
  · rename_i a b c d left
    split at heq
    · rename_i ha hb hc hd
      cases heq
      exact ⟨[a, b, c, d], rfl, fun more => by
        simp only [List.cons_append, List.nil_append, readQuad, ha, hb, hc, hd]⟩
    · cases heq
  · cases heq

theorem cutsFreely_readTrailing : CutsFreely readTrailing := by
  intro cs n rest heq
  have hpart : CutsFreely fun cs => readTrailing (['\\', 'u'] ++ cs) := by
    refine cutsFreely_readQuad.bind fun n => ?_
    by_cases hn : isTrailing n = true
    · simp only [if_pos hn]
      exact .give (.ok n)
    · simp only [if_neg hn]
      exact .give (.error .loneSurrogate)
  unfold readTrailing at heq
  split at heq
  · cases heq
  · cases heq
  · exact hpart.append _ heq
  · cases heq

theorem cutsFreely_readCodePoint : CutsFreely readCodePoint := by
  refine cutsFreely_readQuad.bind fun n => ?_
  by_cases htrailing : isTrailing n = true
  · simp only [if_pos htrailing]
    exact .give (.error .loneSurrogate)
  by_cases hleading : isLeading n = true
  · simp only [if_neg htrailing, if_pos hleading]
    exact cutsFreely_readTrailing.bind fun m =>
      .give (.ok (Char.ofNat ((n - 0xd800) * 0x400 + (m - 0xdc00) + 0x10000)))
  · simp only [if_neg htrailing, if_neg hleading]
    exact .give (.ok (Char.ofNat n))

theorem cutsFreely_readEscape : CutsFreely readEscape := by
  intro cs c rest heq
  cases cs with
  | nil => cases heq
  | cons d cs =>
    have hpart : CutsFreely fun cs => readEscape ([d] ++ cs) := by
      simp only [List.singleton_append, readEscape]
      split
      · exact cutsFreely_readCodePoint
      · split
        · exact .give (.ok _)
        · exact .give (.error .invalidEscape)
    exact hpart.append _ heq

theorem cutsFreely_readCharacters (before : List Char) : CutsFreely (readCharacters before) := by
  intro cs s rest heq
  fun_induction readCharacters before cs with
  | case1 => cases heq
  | case2 before cs =>
    cases heq
    exact ⟨['"'], rfl, fun more => readCharacters_quote before more⟩
  | case3 => cases heq
  | case4 before cs d mid hescape _ ih =>
    obtain ⟨first, hcs, hfirst⟩ := cutsFreely_readEscape cs d mid hescape
    obtain ⟨second, hmid, hsecond⟩ := ih heq
    refine ⟨'\\' :: (first ++ second), ?_, fun more => ?_⟩
    · rw [hcs, hmid, List.cons_append, List.append_assoc]
    · rw [List.cons_append, List.append_assoc, readCharacters_escape (hfirst _)]
      exact hsecond more
  | case5 => cases heq
  | case6 before c cs hquote hslash hcontrol ih =>
    obtain ⟨part, hcs, hpart⟩ := ih heq
    refine ⟨c :: part, by rw [hcs, List.cons_append], fun more => ?_⟩
    rw [List.cons_append, readCharacters_plain hquote hslash hcontrol]
    exact hpart more

/-- **Strings stand for themselves.** -/
theorem cutsFreely_readString : CutsFreely readString := cutsFreely_readCharacters []

/-! ### Values without brackets -/

/-- **Values without brackets stand for themselves.** -/
theorem cuts_readScalar : Cuts readScalar := by
  intro cs v rest heq
  cases cs with
  | nil => cases heq
  | cons c cs =>
    have hpart : Cuts fun cs => readScalar (c :: cs) := by
      simp only [readScalar]
      split_ifs
      · exact (cutsFreely_readWord _ _).cuts
      · exact (cutsFreely_readWord _ _).cuts
      · exact (cutsFreely_readWord _ _).cuts
      · exact (cutsFreely_readString.bind fun s => .give (.ok (Value.string s))).cuts
      · exact (cuts_readNumber c).bind fun n => .give (.ok (Value.number n))
      · exact .give (.error _)
    exact hpart.cons heq

end AccessGraph.Json
