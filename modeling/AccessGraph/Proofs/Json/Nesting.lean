import AccessGraph.Json.Variant
import AccessGraph.Proofs.Json.Brackets
import AccessGraph.Proofs.Json.Value
/-!
# What is read nests as deep as its text

* `Json.nextItem_cases`, `Json.nextKey_cases` : one step to the next item or member, or to the end.
* `Json.closes_of_readItems`, `Json.closes_of_readMembers` : all items and members of a bracket.
* `Json.takes_of_readValue` : **a value nests as deep as the text that it is read from.**
* `Json.Tagged.takes_of_read` : **so does a value of several variants**, and it is one of them.
* `Json.textNesting_of_takes`, `Json.textNesting_write` : the same of whole texts, read or written.
-/

namespace AccessGraph.Json

variable {α : Type}

/-! ### What separates items and members -/

theorem passes_of_readColon {cs rest : List Char} (h : readColon cs = .ok rest) :
    Passes cs rest := by
  unfold readColon at h
  split at h
  · cases h
  · rename_i c left hskip
    split at h
    · rename_i hc
      cases h
      rw [hc] at hskip
      exact (passes_of_skipBlanks hskip).trans (passes_cons rfl rest)
    · cases h

/-- What the reader has found: the end of the array, or the next item, behind a comma unless it is the
first. -/
theorem nextItem_cases {first more : Bool} {cs rest : List Char}
    (h : nextItem first cs = .ok (more, rest)) :
    (more = false ∧ skipBlanks cs = ']' :: rest) ∨
      more = true ∧ (skipBlanks cs = rest ∨
        ∃ mid, skipBlanks cs = ',' :: mid ∧ skipBlanks mid = rest) := by
  unfold nextItem at h
  split at h
  · cases h
  · rename_i c left hskip
    by_cases hclose : c = ']'
    · rw [if_pos hclose] at h
      cases h
      exact .inl ⟨rfl, by rw [hskip, hclose]⟩
    rw [if_neg hclose] at h
    cases first with
    | true =>
      cases h
      exact .inr ⟨rfl, .inl hskip⟩
    | false =>
      by_cases hcomma : c = ','
      · simp only [Bool.false_eq_true, if_false, if_pos hcomma] at h
        split at h
        · cases h
        · rename_i d after hskip'
          split at h
          · cases h
          · cases h
            exact .inr ⟨rfl, .inr ⟨left, by rw [hskip, hcomma], hskip'⟩⟩
      · simp only [Bool.false_eq_true, if_false, if_neg hcomma] at h
        cases h

theorem passes_of_nextItem {first : Bool} {cs rest : List Char}
    (h : nextItem first cs = .ok (true, rest)) : Passes cs rest := by
  obtain ⟨hend, -⟩ | ⟨-, hskip | ⟨mid, hskip, hmid⟩⟩ := nextItem_cases h
  · cases hend
  · exact passes_of_skipBlanks hskip
  · exact (passes_of_skipBlanks hskip).trans ((passes_cons rfl mid).trans (passes_of_skipBlanks hmid))

theorem closes_of_nextItem {first : Bool} {cs rest : List Char}
    (h : nextItem first cs = .ok (false, rest)) : Closes cs 0 rest := by
  obtain ⟨-, hskip⟩ | ⟨hmore, -⟩ := nextItem_cases h
  · exact (passes_of_skipBlanks hskip).closes_of_closes (closes_cons (.inl rfl) rest)
  · cases hmore

/-- What is read as a name is a string. -/
theorem readKey_cases {cs rest : List Char} {name : Option String}
    (h : readKey cs = .ok (name, rest)) : ∃ s, name = some s ∧ Passes cs rest := by
  cases cs with
  | nil => cases h
  | cons c cs =>
    rw [readKey] at h
    split at h
    · rename_i hc
      obtain ⟨⟨s, left⟩, hs, h⟩ := bind_eq_ok_iff.1 h
      cases h
      rw [hc]
      exact ⟨s, rfl, passes_of_readString hs⟩
    · split at h
      · cases h
      · cases h

/-- What the reader has found: the end of the object, or the name of the next member. -/
theorem nextKey_cases {first : Bool} {cs rest : List Char} {name : Option String}
    (h : nextKey first cs = .ok (name, rest)) :
    (name = none ∧ skipBlanks cs = '\x7d' :: rest) ∨ ∃ s, name = some s ∧ Passes cs rest := by
  unfold nextKey at h
  split at h
  · cases h
  · rename_i c left hskip
    have hblanks := passes_of_skipBlanks hskip
    by_cases hclose : c = '\x7d'
    · rw [if_pos hclose] at h
      cases h
      exact .inl ⟨rfl, by rw [hskip, hclose]⟩
    rw [if_neg hclose] at h
    cases first with
    | true =>
      rw [if_pos rfl] at h
      obtain ⟨s, hname, hkey⟩ := readKey_cases h
      exact .inr ⟨s, hname, hblanks.trans hkey⟩
    | false =>
      by_cases hcomma : c = ','
      · simp only [Bool.false_eq_true, if_false, if_pos hcomma] at h
        obtain ⟨s, hname, hkey⟩ := readKey_cases h
        have hcommas : Passes (c :: left) left := hcomma ▸ passes_cons rfl left
        exact .inr ⟨s, hname, hblanks.trans (hcommas.trans ((passes_skipBlanks left).trans hkey))⟩
      · simp only [Bool.false_eq_true, if_false, if_neg hcomma] at h
        cases h

theorem passes_of_nextKey {first : Bool} {cs rest : List Char} {name : String}
    (h : nextKey first cs = .ok (some name, rest)) : Passes cs rest := by
  obtain ⟨hend, -⟩ | ⟨_, -, hpasses⟩ := nextKey_cases h
  · cases hend
  · exact hpasses

theorem closes_of_nextKey {first : Bool} {cs rest : List Char}
    (h : nextKey first cs = .ok (none, rest)) : Closes cs 0 rest := by
  obtain ⟨-, hskip⟩ | ⟨_, hname, -⟩ := nextKey_cases h
  · exact (passes_of_skipBlanks hskip).closes_of_closes (closes_cons (.inr rfl) rest)
  · cases hname

/-! ### Values -/

/-- A fixed word behind its first letter. -/
theorem takes_of_word {c : Char} {word cs rest : List Char} {v w : Value} (hc : isMark c = false)
    (hword : ∀ d ∈ word, isMark d = false) (hv : v.nesting = 0)
    (h : (readWord word cs >>= fun rest => .ok (v, rest)) = .ok (w, rest)) :
    Takes (c :: cs) w.nesting rest := by
  obtain ⟨left, hread, h⟩ := bind_eq_ok_iff.1 h
  cases h
  rw [hv]
  exact ((passes_cons hc cs).trans (passes_of_readWord hword hread)).takes

theorem takes_of_readScalar {cs rest : List Char} {v : Value} (h : readScalar cs = .ok (v, rest)) :
    Takes cs v.nesting rest := by
  cases cs with
  | nil => cases h
  | cons c cs =>
    rw [readScalar] at h
    by_cases hnull : c = 'n'
    · rw [if_pos hnull] at h
      exact takes_of_word (hnull ▸ rfl) (by simp [isMark]) (by rw [Value.nesting]) h
    by_cases htrue : c = 't'
    · rw [if_neg hnull, if_pos htrue] at h
      exact takes_of_word (htrue ▸ rfl) (by simp [isMark]) (by rw [Value.nesting]) h
    by_cases hfalse : c = 'f'
    · rw [if_neg hnull, if_neg htrue, if_pos hfalse] at h
      exact takes_of_word (hfalse ▸ rfl) (by simp [isMark]) (by rw [Value.nesting]) h
    rw [if_neg hnull, if_neg htrue, if_neg hfalse] at h
    by_cases hquote : c = '"'
    · rw [if_pos hquote] at h
      obtain ⟨⟨s, left⟩, hstring, h⟩ := bind_eq_ok_iff.1 h
      cases h
      rw [hquote, Value.nesting]
      exact (passes_of_readString hstring).takes
    by_cases hnumber : c = '-' ∨ c.isDigit = true
    · rw [if_neg hquote, if_pos hnumber] at h
      obtain ⟨⟨n, left⟩, hread, h⟩ := bind_eq_ok_iff.1 h
      cases h
      rw [Value.nesting]
      exact (passing_readNumber _ n rest hread).takes
    · rw [if_neg hquote, if_neg hnumber] at h
      cases h

section Loops

variable {value : List Char → Except Fault (Value × List Char)}

/-- **The items of an array nest as deep as they do in the text**, up to the closing bracket. -/
theorem closes_of_readItems
    (hvalue : ∀ cs v rest, value cs = .ok (v, rest) → Takes cs v.nesting rest) {rounds : Nat}
    {first : Bool} {before items : List Value} {cs rest : List Char}
    (h : readItems value rounds first before cs = .ok (items, rest)) :
    ∃ vs, items = before.reverse ++ vs ∧ Closes cs (Value.nestingItems vs) rest := by
  induction rounds generalizing first before cs with
  | zero => cases h
  | succ rounds ih =>
    rw [readItems] at h
    obtain ⟨⟨more, mid⟩, hnext, h⟩ := bind_eq_ok_iff.1 h
    cases more with
    | false =>
      cases h
      exact ⟨[], (List.append_nil _).symm, closes_of_nextItem hnext⟩
    | true =>
      obtain ⟨⟨v, left⟩, hv, h⟩ := bind_eq_ok_iff.1 h
      obtain ⟨vs, hitems, hvs⟩ := ih h
      refine ⟨v :: vs, by rw [hitems, List.reverse_cons, List.append_assoc]; rfl, ?_⟩
      exact (passes_of_nextItem hnext).closes_of_closes ((hvalue mid v left hv).closes hvs)

/-- **The members of an object nest as deep as they do in the text**, up to the closing brace. -/
theorem closes_of_readMembers
    (hvalue : ∀ cs v rest, value cs = .ok (v, rest) → Takes cs v.nesting rest) {rounds : Nat}
    {first : Bool} {before members : List (String × Value)} {cs rest : List Char}
    (h : readMembers value rounds first before cs = .ok (members, rest)) :
    ∃ ms, members = before.reverse ++ ms ∧ Closes cs (Value.nestingMembers ms) rest := by
  induction rounds generalizing first before cs with
  | zero => cases h
  | succ rounds ih =>
    rw [readMembers] at h
    obtain ⟨⟨name, mid⟩, hnext, h⟩ := bind_eq_ok_iff.1 h
    cases name with
    | none =>
      cases h
      exact ⟨[], (List.append_nil _).symm, closes_of_nextKey hnext⟩
    | some name =>
      obtain ⟨cs', hcolon, h⟩ := bind_eq_ok_iff.1 h
      obtain ⟨⟨v, left⟩, hv, h⟩ := bind_eq_ok_iff.1 h
      obtain ⟨ms, hmembers, hms⟩ := ih h
      refine ⟨(name, v) :: ms, by rw [hmembers, List.reverse_cons, List.append_assoc]; rfl, ?_⟩
      exact ((passes_of_nextKey hnext).trans (passes_of_readColon hcolon)).closes_of_closes
        ((hvalue cs' v left hv).closes hms)

end Loops

/-- **A value nests as deep as the text that it is read from.** -/
theorem takes_of_readValue {fuel depth : Nat} {cs rest : List Char} {v : Value}
    (h : readValue fuel depth cs = .ok (v, rest)) : Takes cs v.nesting rest := by
  induction depth generalizing cs v rest with
  | zero =>
    unfold readValue at h
    split at h
    · cases h
    · rename_i c left hskip
      split at h
      · cases h
      · split at h
        · cases h
        · exact (passes_of_skipBlanks hskip).takes_of_takes (takes_of_readScalar h)
  | succ depth ih =>
    unfold readValue at h
    split at h
    · cases h
    · rename_i c left hskip
      have hblanks := passes_of_skipBlanks hskip
      split at h
      · rename_i hc
        obtain ⟨⟨items, _⟩, hitems, h⟩ := bind_eq_ok_iff.1 h
        cases h
        obtain ⟨vs, rfl, hvs⟩ := closes_of_readItems (fun _ _ _ => ih) hitems
        exact hblanks.takes_of_takes (takes_of_closes (.inl hc) hvs)
      · split at h
        · rename_i hc
          obtain ⟨⟨members, _⟩, hmembers, h⟩ := bind_eq_ok_iff.1 h
          cases h
          obtain ⟨ms, rfl, hms⟩ := closes_of_readMembers (fun _ _ _ => ih) hmembers
          exact hblanks.takes_of_takes (takes_of_closes (.inr hc) hms)
        · exact hblanks.takes_of_takes (takes_of_readScalar h)

/-! ### Values of several variants -/

variable {σ : Type} {C : σ → Type}

/-- The nesting of the fields of a value. -/
def Body.nesting : Body → Nat
  | .items vs => Value.nestingItems vs
  | .members ms => Value.nestingMembers ms

namespace Choice

theorem mem_of_named {choice : Choice C α} {name : String} {variant : Variant C α}
    (h : choice.named name = .ok variant) : variant ∈ choice.variants := by
  unfold named at h
  split at h
  · rename_i hfind
    cases h
    exact List.mem_of_find?_eq_some hfind
  · cases h

/-- A tag is a string, and it names a variant. -/
theorem passes_of_readTag {choice : Choice C α} {cs rest : List Char} {variant : Variant C α}
    (h : choice.readTag cs = .ok (variant, rest)) :
    variant ∈ choice.variants ∧ Passes cs rest := by
  unfold readTag at h
  split at h
  · cases h
  · rename_i c left hskip
    split at h
    · rename_i hc
      obtain ⟨⟨name, _⟩, hstring, h⟩ := bind_eq_ok_iff.1 h
      obtain ⟨_, hnamed, h⟩ := bind_eq_ok_iff.1 h
      cases h
      rw [hc] at hskip
      exact ⟨mem_of_named hnamed, (passes_of_skipBlanks hskip).trans (passes_of_readString hstring)⟩
    · cases h

end Choice

namespace Tagged

theorem closes_of_readMembers {choice : Choice C α}
    {value : List Char → Except Fault (Value × List Char)}
    (hvalue : ∀ cs v rest, value cs = .ok (v, rest) → Takes cs v.nesting rest) {rounds : Nat}
    {first : Bool} {tag : Option (Variant C α)} (htag : ∀ variant ∈ tag, variant ∈ choice.variants)
    {before : List (String × Value)} {cs rest : List Char} {t : Tagged C α}
    (h : readMembers choice value rounds first tag before cs = .ok (t, rest)) :
    t.variant ∈ choice.variants ∧
      ∃ ms, t.body = .members (before.reverse ++ ms) ∧ Closes cs (Value.nestingMembers ms) rest := by
  induction rounds generalizing first tag before cs with
  | zero => cases h
  | succ rounds ih =>
    rw [readMembers] at h
    obtain ⟨⟨name, mid⟩, hnext, h⟩ := bind_eq_ok_iff.1 h
    cases name with
    | none =>
      cases tag with
      | none => cases h
      | some variant =>
        cases h
        refine ⟨htag variant rfl, [], ?_, closes_of_nextKey hnext⟩
        rw [List.append_nil]
    | some name =>
      have hkey := passes_of_nextKey hnext
      dsimp only at h
      split at h
      · -- the tag is no member of its own
        cases tag with
        | some variant => cases h
        | none =>
          obtain ⟨cs', hcolon, h⟩ := bind_eq_ok_iff.1 h
          obtain ⟨⟨variant, left⟩, hvariant, h⟩ := bind_eq_ok_iff.1 h
          obtain ⟨hmem, hpasses⟩ := Choice.passes_of_readTag hvariant
          obtain ⟨ht, ms, hbody, hms⟩ := ih (by rintro _ ⟨⟩; exact hmem) h
          exact ⟨ht, ms, hbody, (hkey.trans ((passes_of_readColon hcolon).trans
            hpasses)).closes_of_closes hms⟩
      · obtain ⟨cs', hcolon, h⟩ := bind_eq_ok_iff.1 h
        obtain ⟨⟨v, left⟩, hv, h⟩ := bind_eq_ok_iff.1 h
        obtain ⟨ht, ms, hbody, hms⟩ := ih htag h
        refine ⟨ht, (name, v) :: ms, by rw [hbody, List.reverse_cons, List.append_assoc]; rfl, ?_⟩
        exact (hkey.trans (passes_of_readColon hcolon)).closes_of_closes
          ((hvalue cs' v left hv).closes hms)

/-- **A value of several variants nests as deep as the text that it is read from**, and it is one of
these variants. -/
theorem takes_of_read {choice : Choice C α} {fuel : Nat} {cs rest : List Char} {t : Tagged C α}
    (h : read choice fuel cs = .ok (t, rest)) :
    t.variant ∈ choice.variants ∧ Takes cs (1 + t.body.nesting) rest := by
  unfold read at h
  split at h
  · cases h
  · rename_i c left hskip
    have hblanks := passes_of_skipBlanks hskip
    split at h
    · rename_i hc
      obtain ⟨⟨more, mid⟩, hnext, h⟩ := bind_eq_ok_iff.1 h
      cases more with
      | false => cases h
      | true =>
        obtain ⟨⟨variant, mid'⟩, hvariant, h⟩ := bind_eq_ok_iff.1 h
        obtain ⟨⟨items, _⟩, hitems, h⟩ := bind_eq_ok_iff.1 h
        cases h
        obtain ⟨hmem, htag⟩ := Choice.passes_of_readTag hvariant
        obtain ⟨vs, rfl, hvs⟩ := Json.closes_of_readItems (fun _ _ _ => takes_of_readValue) hitems
        have hcloses := ((passes_of_nextItem hnext).trans htag).closes_of_closes hvs
        exact ⟨hmem, hblanks.takes_of_takes (takes_of_closes (.inl hc) hcloses)⟩
    · split at h
      · rename_i hc
        obtain ⟨hmem, ms, hbody, hms⟩ :=
          closes_of_readMembers (fun _ _ _ => takes_of_readValue) (fun _ hnone => by cases hnone) h
        rw [hbody]
        exact ⟨hmem, hblanks.takes_of_takes (takes_of_closes (.inr hc) hms)⟩
      · cases h

end Tagged

/-! ### Whole texts -/

/-- **A text nests as deep as what is read from it.** -/
theorem textNesting_of_takes {text : String} {nesting : Nat} {rest : List Char}
    (h : Takes text.toList nesting rest) (hrest : skipBlanks rest = []) :
    textNesting text = nesting := by
  rw [textNesting, h 0, passes_of_skipBlanks hrest 0, deepest, Nat.zero_add, Nat.max_zero]

/-- **The text of a value nests as deep as the value**, however it is spaced. -/
theorem textNesting_write {spacing : Spacing} (hs : spacing.IsBlank) {v : Value} (h : v.Readable) :
    textNesting (String.ofList (v.write spacing 0)) = v.nesting := by
  have hread := readValue_write hs v 0 v.nesting [] h (Nat.le_refl _) endsNumber_nil
  rw [List.append_nil, within_of_le (Nat.le_refl _)] at hread
  have htakes : Takes (String.ofList (v.write spacing 0)).toList v.nesting [] := by
    rw [String.toList_ofList]
    exact takes_of_readValue hread
  exact textNesting_of_takes htakes rfl

end AccessGraph.Json
