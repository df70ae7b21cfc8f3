import AccessGraph.Proofs.Json.Cut
import AccessGraph.Proofs.Json.Nesting
/-!
# What a text spells

A value has many texts: blanks may stand between all parts, and numbers and strings can be written in
several ways. The texts of an array or object are made up of texts of its items or members, whatever
these are, so that such a text can be taken apart and put together in another way.

* `Json.Spells`, `Json.SpellsItems`, `Json.SpellsMembers` : some characters spell a value, or what
  stands between the brackets of an array or object.
* `Json.TextSpells` : a whole text spells a value.
* `Json.readValue_of_spells` : **what is spelled is read**, if no more brackets lie inside each other
  than may be open.
* `Json.spells_of_readValue` : **what is read is spelled.**
* `Json.readText_value_iff` : both of whole texts.
-/

namespace AccessGraph.Json

variable {α : Type}

/-! ### What stands between the parts -/

/-- These characters stand in front of the first item or member, or of another one. -/
def Separates : (first : Bool) → List Char → Prop
  | true, sep => Blanks sep
  | false, sep => ∃ before after, Blanks before ∧ Blanks after ∧ sep = before ++ ',' :: after

/-- Characters are blanks if each of them is one. -/
theorem blanks_of_all (bs : List Char) (h : bs.all isBlank = true) : Blanks bs := List.all_eq_true.1 h

/-- A comma may stand in front of an item or member at once. -/
theorem separates_comma {bs : List Char} (h : Blanks bs) : Separates false (',' :: bs) :=
  ⟨[], bs, nofun, h, rfl⟩

/-- Blanks are skipped up to a character that is none. -/
theorem exists_blanks (cs : List Char) : ∃ bs, Blanks bs ∧ cs = bs ++ skipBlanks cs :=
  ⟨cs.takeWhile isBlank, fun _ h => List.mem_takeWhile_imp h, List.takeWhile_append_dropWhile.symm⟩

theorem isBlank_of_skipBlanks {cs rest : List Char} {c : Char} (h : skipBlanks cs = c :: rest) :
    isBlank c = false := by
  have hnot := List.head?_dropWhile_not isBlank cs
  rwa [← skipBlanks, h] at hnot

/-- What separates an item from the one before it stands in front of it. -/
theorem nextItem_eq_ok_true_iff {first : Bool} {cs rest : List Char} :
    nextItem first cs = .ok (true, rest) ↔
      ∃ sep, Separates first sep ∧ cs = sep ++ rest ∧ StartsItem rest := by
  constructor
  · intro h
    obtain ⟨bs, hbs, hcs⟩ := exists_blanks cs
    unfold nextItem at h
    split at h
    · cases h
    · rename_i c left hskip
      rw [hskip] at hcs
      split_ifs at h with hclose hfirst hcomma
      · cases h
      · cases h
        exact ⟨bs, by rw [hfirst]; exact hbs, hcs, c, left, rfl, isBlank_of_skipBlanks hskip, hclose⟩
      · obtain ⟨bs', hbs', hleft⟩ := exists_blanks left
        obtain rfl := Bool.eq_false_iff.2 hfirst
        split at h
        · cases h
        · rename_i d after hskip'
          split_ifs at h with hend
          cases h
          rw [hskip'] at hleft
          refine ⟨bs ++ ',' :: bs', ⟨bs, bs', hbs, hbs', rfl⟩, ?_, d, after, rfl,
            isBlank_of_skipBlanks hskip', hend⟩
          rw [hcs, hcomma, hleft, List.append_assoc, List.cons_append]
  · rintro ⟨sep, hsep, rfl, hrest⟩
    cases first with
    | true => exact nextItem_first hsep hrest
    | false =>
      obtain ⟨before, after, hbefore, hafter, rfl⟩ := hsep
      rw [List.append_assoc, List.cons_append, nextItem, skipBlanks_append hbefore]
      exact nextItem_comma hafter hrest

/-- Behind blanks, an array ends with its bracket. -/
theorem nextItem_eq_ok_false_iff {first : Bool} {cs rest : List Char} :
    nextItem first cs = .ok (false, rest) ↔ ∃ bs, Blanks bs ∧ cs = bs ++ ']' :: rest := by
  constructor
  · intro h
    obtain ⟨bs, hbs, hcs⟩ := exists_blanks cs
    obtain ⟨-, hskip⟩ | ⟨hmore, -⟩ := nextItem_cases h
    · exact ⟨bs, hbs, hskip ▸ hcs⟩
    · cases hmore
  · rintro ⟨bs, hbs, rfl⟩
    exact nextItem_close hbs first rest

/-- A name is a string. -/
theorem readKey_eq_ok_iff {cs rest : List Char} {name : Option String} :
    readKey cs = .ok (name, rest) ↔
      ∃ key cs', name = some key ∧ cs = '"' :: cs' ∧ readString cs' = .ok (key, rest) := by
  constructor
  · intro h
    cases cs with
    | nil => cases h
    | cons c cs =>
      rw [readKey] at h
      split_ifs at h with hquote
      obtain ⟨⟨key, left⟩, hkey, h⟩ := bind_eq_ok_iff.1 h
      cases h
      exact ⟨key, cs, rfl, by rw [hquote], hkey⟩
  · rintro ⟨key, cs, rfl, rfl, h⟩
    rw [readKey, if_pos rfl]
    exact bind_eq_ok_iff.2 ⟨(key, rest), h, rfl⟩

/-- What separates a member from the one before it stands in front of its name. -/
theorem nextKey_eq_ok_some_iff {first : Bool} {cs rest : List Char} {name : String} :
    nextKey first cs = .ok (some name, rest) ↔
      ∃ sep cs', Separates first sep ∧ cs = sep ++ '"' :: cs' ∧
        readString cs' = .ok (name, rest) := by
  constructor
  · intro h
    obtain ⟨bs, hbs, hcs⟩ := exists_blanks cs
    unfold nextKey at h
    split at h
    · cases h
    · rename_i c left hskip
      rw [hskip] at hcs
      split_ifs at h with hclose hfirst hcomma
      · cases h
      · obtain ⟨_, cs', hname, hquote, hkey⟩ := readKey_eq_ok_iff.1 h
        cases hname
        exact ⟨bs, cs', by rw [hfirst]; exact hbs, by rw [hcs, hquote], hkey⟩
      · obtain ⟨bs', hbs', hleft⟩ := exists_blanks left
        obtain rfl := Bool.eq_false_iff.2 hfirst
        obtain ⟨_, cs', hname, hquote, hkey⟩ := readKey_eq_ok_iff.1 h
        cases hname
        refine ⟨bs ++ ',' :: bs', cs', ⟨bs, bs', hbs, hbs', rfl⟩, ?_, hkey⟩
        rw [hcs, hcomma, hleft, hquote, List.append_assoc, List.cons_append]
  · rintro ⟨sep, cs', hsep, rfl, hkey⟩
    have hname := readKey_eq_ok_iff.2 ⟨name, cs', rfl, rfl, hkey⟩
    cases first with
    | true =>
      rw [nextKey, skipBlanks_append hsep, skipBlanks_cons rfl]
      exact hname
    | false =>
      obtain ⟨before, after, hbefore, hafter, rfl⟩ := hsep
      rw [List.append_assoc, List.cons_append, nextKey, skipBlanks_append hbefore,
        skipBlanks_cons rfl]
      show readKey (skipBlanks (after ++ '"' :: cs')) = _
      rw [skipBlanks_append hafter, skipBlanks_cons rfl, hname]

/-- Behind blanks, an object ends with its brace. -/
theorem nextKey_eq_ok_none_iff {first : Bool} {cs rest : List Char} :
    nextKey first cs = .ok (none, rest) ↔ ∃ bs, Blanks bs ∧ cs = bs ++ '\x7d' :: rest := by
  constructor
  · intro h
    obtain ⟨bs, hbs, hcs⟩ := exists_blanks cs
    obtain ⟨-, hskip⟩ | ⟨_, hname, -⟩ := nextKey_cases h
    · exact ⟨bs, hbs, hskip ▸ hcs⟩
    · cases hname
  · rintro ⟨bs, hbs, rfl⟩
    exact nextKey_close hbs first rest

/-- Behind blanks, a colon follows a name. -/
theorem readColon_eq_ok_iff {cs rest : List Char} :
    readColon cs = .ok rest ↔ ∃ bs, Blanks bs ∧ cs = bs ++ ':' :: rest := by
  constructor
  · intro h
    obtain ⟨bs, hbs, hcs⟩ := exists_blanks cs
    unfold readColon at h
    split at h
    · cases h
    · rename_i c left hskip
      rw [hskip] at hcs
      split_ifs at h with hcolon
      cases h
      exact ⟨bs, hbs, by rw [hcs, hcolon]⟩
  · rintro ⟨bs, hbs, rfl⟩
    rw [readColon, skipBlanks_append hbs]
    exact readColon_cons rest

/-! ### Texts of values -/

mutual

/-- The characters spell a value, without blanks around it. -/
inductive Spells : List Char → Value → Prop where
  | scalar {cs : List Char} {v : Value} (h : readScalar cs = .ok (v, [])) : Spells cs v
  | array {cs : List Char} {items : List Value} (h : SpellsItems true cs items) :
      Spells ('[' :: cs) (.array items)
  | object {cs : List Char} {members : List (String × Value)} (h : SpellsMembers true cs members) :
      Spells ('\x7b' :: cs) (.object members)

/-- The characters spell the remaining items of an array, up to its closing bracket. -/
inductive SpellsItems : (first : Bool) → List Char → List Value → Prop where
  | close {first : Bool} {bs : List Char} (hbs : Blanks bs) : SpellsItems first (bs ++ [']']) []
  | item {first : Bool} {sep cs rest : List Char} {v : Value} {vs : List Value}
      (hsep : Separates first sep) (h : Spells cs v) (hrest : SpellsItems false rest vs) :
      SpellsItems first (sep ++ (cs ++ rest)) (v :: vs)

/-- The characters spell the remaining members of an object, up to its closing brace. -/
inductive SpellsMembers : (first : Bool) → List Char → List (String × Value) → Prop where
  | close {first : Bool} {bs : List Char} (hbs : Blanks bs) :
      SpellsMembers first (bs ++ ['\x7d']) []
  | member {first : Bool} {sep key before after cs rest : List Char} {name : String} {v : Value}
      {members : List (String × Value)} (hsep : Separates first sep)
      (hkey : readString key = .ok (name, [])) (hbefore : Blanks before) (hafter : Blanks after)
      (h : Spells cs v) (hrest : SpellsMembers false rest members) :
      SpellsMembers first (sep ++ '"' :: (key ++ (before ++ ':' :: (after ++ (cs ++ rest)))))
        ((name, v) :: members)

end

/-- The text spells a value, with blanks around it. -/
def TextSpells (text : String) (v : Value) : Prop :=
  ∃ before cs after, Blanks before ∧ Spells cs v ∧ Blanks after ∧
    text.toList = before ++ (cs ++ after)

/-- What a value without brackets starts with. -/
theorem first_of_readScalar {c : Char} {cs rest : List Char} {v : Value}
    (h : readScalar (c :: cs) = .ok (v, rest)) :
    isBlank c = false ∧ c ≠ ']' ∧ c ≠ '[' ∧ c ≠ '\x7b' := by
  rw [readScalar] at h
  split_ifs at h with hnull htrue hfalse hquote hnumber
  · subst hnull
    decide
  · subst htrue
    decide
  · subst hfalse
    decide
  · subst hquote
    decide
  · refine ⟨isBlank_of_first hnumber, ?_, ?_, ?_⟩
    all_goals
      rintro rfl
      exact absurd hnumber (by decide)

/-- A value starts with a character that is neither blank nor the end of an array. -/
theorem Spells.startsItem {cs : List Char} {v : Value} (h : Spells cs v) (rest : List Char) :
    StartsItem (cs ++ rest) := by
  cases h with
  | scalar h =>
    cases cs with
    | nil => cases h
    | cons c cs =>
      obtain ⟨hblank, hclose, -⟩ := first_of_readScalar h
      exact ⟨c, cs ++ rest, rfl, hblank, hclose⟩
  | array => exact ⟨'[', _, rfl, rfl, by decide⟩
  | object => exact ⟨'\x7b', _, rfl, rfl, by decide⟩

theorem Spells.length_pos {cs : List Char} {v : Value} (h : Spells cs v) : 0 < cs.length := by
  obtain ⟨c, left, hcs, -⟩ := h.startsItem []
  rw [List.append_nil] at hcs
  rw [hcs]
  exact Nat.succ_pos _

/-- The comma between two items or members ends a number, with the blanks before it. -/
theorem Separates.endsNumber {sep : List Char} (h : Separates false sep) (rest : List Char) :
    EndsNumber (sep ++ rest) := by
  obtain ⟨before, after, hbefore, -, rfl⟩ := h
  rw [List.append_assoc]
  exact endsNumber_append hbefore (endsNumber_cons (by decide))

/-- What follows an item ends a number. -/
theorem SpellsItems.endsNumber {cs : List Char} {vs : List Value} (h : SpellsItems false cs vs)
    (rest : List Char) : EndsNumber (cs ++ rest) := by
  cases h with
  | close hbs =>
    rw [List.append_assoc]
    exact endsNumber_append hbs (endsNumber_cons (by decide))
  | item hsep =>
    rw [List.append_assoc]
    exact hsep.endsNumber _

/-- What follows a member ends a number. -/
theorem SpellsMembers.endsNumber {cs : List Char} {members : List (String × Value)}
    (h : SpellsMembers false cs members) (rest : List Char) : EndsNumber (cs ++ rest) := by
  cases h with
  | close hbs =>
    rw [List.append_assoc]
    exact endsNumber_append hbs (endsNumber_cons (by decide))
  | member hsep =>
    rw [List.append_assoc]
    exact hsep.endsNumber _

/-- The name of a member is read in front of what follows it. -/
theorem readString_append {key : List Char} {name : String} (h : readString key = .ok (name, []))
    (rest : List Char) : readString (key ++ rest) = .ok (name, rest) := by
  obtain ⟨part, rfl, hpart⟩ := cutsFreely_readString key name [] h
  rw [List.append_nil]
  exact hpart rest

/-! ### What is spelled is read -/

/-- The name of a member is read, and the colon behind it. -/
theorem exists_nextKey {first : Bool} {sep key before : List Char} {name : String}
    (hsep : Separates first sep) (hkey : readString key = .ok (name, [])) (hbefore : Blanks before)
    (cs rest : List Char) : ∃ mid,
      nextKey first (sep ++ '"' :: (key ++ (before ++ ':' :: cs)) ++ rest) = .ok (some name, mid) ∧
        readColon mid = .ok (cs ++ rest) := by
  refine ⟨before ++ ':' :: (cs ++ rest), ?_, readColon_eq_ok_iff.2 ⟨before, hbefore, rfl⟩⟩
  refine nextKey_eq_ok_some_iff.2 ⟨sep, _, hsep, ?_, readString_append hkey _⟩
  simp only [List.append_assoc, List.cons_append]

/-- An item is found behind what separates it from the one before it. -/
theorem nextItem_of_spells {first : Bool} {sep cs : List Char} {v : Value}
    (hsep : Separates first sep) (h : Spells cs v) (left rest : List Char) :
    nextItem first (sep ++ (cs ++ left) ++ rest) = .ok (true, cs ++ (left ++ rest)) := by
  refine nextItem_eq_ok_true_iff.2 ⟨sep, hsep, ?_, h.startsItem _⟩
  rw [List.append_assoc, List.append_assoc]

mutual

/-- **What is spelled is read**, if no more brackets lie inside each other than may be open. -/
theorem readValue_of_spells {fuel depth : Nat} {cs rest : List Char} {v : Value} (h : Spells cs v)
    (hdepth : v.nesting ≤ depth) (hfuel : cs.length ≤ fuel) (hrest : EndsNumber rest) :
    readValue fuel depth (cs ++ rest) = .ok (v, rest) := by
  match h with
  | .scalar h =>
    obtain ⟨part, rfl, hpart⟩ := cuts_readScalar cs v [] h
    rw [List.append_nil] at h ⊢
    cases part with
    | nil => cases h
    | cons c part =>
      obtain ⟨hblank, -, harray, hobject⟩ := first_of_readScalar h
      rw [List.cons_append, readValue_scalar hblank harray hobject]
      exact hpart rest (.inl hrest)
  | .array h =>
    rw [Value.nesting] at hdepth
    obtain ⟨depth, rfl⟩ := Nat.exists_eq_add_one_of_ne_zero (n := depth) (by omega)
    rw [List.length_cons] at hfuel
    have hitems := readItems_of_spells h (by omega : _ ≤ depth) (by omega : _ ≤ fuel)
      (by omega : _ ≤ fuel) [] rest
    rw [List.cons_append, readValue, skipBlanks_cons rfl]
    exact bind_eq_ok_iff.2 ⟨_, hitems, rfl⟩
  | .object h =>
    rw [Value.nesting] at hdepth
    obtain ⟨depth, rfl⟩ := Nat.exists_eq_add_one_of_ne_zero (n := depth) (by omega)
    rw [List.length_cons] at hfuel
    have hmembers := readMembers_of_spells h (by omega : _ ≤ depth) (by omega : _ ≤ fuel)
      (by omega : _ ≤ fuel) [] rest
    rw [List.cons_append, readValue, skipBlanks_cons rfl]
    exact bind_eq_ok_iff.2 ⟨_, hmembers, rfl⟩

/-- The items of an array are read. -/
theorem readItems_of_spells {fuel depth rounds : Nat} {first : Bool} {cs : List Char} {vs : List Value}
    (h : SpellsItems first cs vs) (hdepth : Value.nestingItems vs ≤ depth) (hfuel : cs.length ≤ fuel)
    (hrounds : cs.length ≤ rounds) (before : List Value) (rest : List Char) :
    readItems (readValue fuel depth) rounds first before (cs ++ rest) =
      .ok (before.reverse ++ vs, rest) := by
  match h with
  | @SpellsItems.close _ bs hbs =>
    rw [List.length_append, List.length_singleton] at hrounds
    rw [List.append_assoc, List.append_nil]
    exact readItems_close (nextItem_close hbs first rest) (by omega) before
  | @SpellsItems.item _ sep cs left v vs hsep h hrest =>
    rw [Value.nestingItems] at hdepth
    simp only [List.length_append] at hfuel hrounds
    have hlength := h.length_pos
    have hitem := readValue_of_spells h (by omega : _ ≤ depth) (by omega : _ ≤ fuel)
      (hrest.endsNumber rest)
    rw [readItems_step (nextItem_of_spells hsep h left rest) (by omega), hitem]
    have hothers := readItems_of_spells hrest (by omega : _ ≤ depth) (by omega : _ ≤ fuel)
      (by omega : _ ≤ rounds - 1) (v :: before) rest
    rwa [List.reverse_cons, List.append_assoc] at hothers

/-- The members of an object are read. -/
theorem readMembers_of_spells {fuel depth rounds : Nat} {first : Bool} {cs : List Char}
    {members : List (String × Value)} (h : SpellsMembers first cs members)
    (hdepth : Value.nestingMembers members ≤ depth) (hfuel : cs.length ≤ fuel)
    (hrounds : cs.length ≤ rounds) (before : List (String × Value)) (rest : List Char) :
    readMembers (readValue fuel depth) rounds first before (cs ++ rest) =
      .ok (before.reverse ++ members, rest) := by
  match h with
  | @SpellsMembers.close _ bs hbs =>
    rw [List.length_append, List.length_singleton] at hrounds
    rw [List.append_assoc, List.append_nil]
    exact readMembers_close (nextKey_close hbs first rest) (by omega) before
  | @SpellsMembers.member _ _ _ _ bs' cs left name v _ hsep hkey hbefore hafter h hrest =>
    rw [Value.nestingMembers] at hdepth
    simp only [List.length_append, List.length_cons] at hfuel hrounds
    obtain ⟨mid, hname, hcolon⟩ := exists_nextKey hsep hkey hbefore (bs' ++ (cs ++ left)) rest
    rw [List.append_assoc, List.append_assoc] at hcolon
    have hvalue := readValue_of_spells h (by omega : _ ≤ depth) (by omega : _ ≤ fuel)
      (hrest.endsNumber rest)
    rw [readMembers_round hname hcolon (by omega), readValue_append hafter, hvalue]
    have hothers := readMembers_of_spells hrest (by omega : _ ≤ depth) (by omega : _ ≤ fuel)
      (by omega : _ ≤ rounds - 1) ((name, v) :: before) rest
    rwa [List.reverse_cons, List.append_assoc] at hothers

end

/-! ### What is read is spelled -/

/-- Blanks may follow what separates items and members. -/
theorem Separates.append {first : Bool} {sep bs : List Char} (h : Separates first sep)
    (hbs : Blanks bs) : Separates first (sep ++ bs) := by
  cases first with
  | true => exact fun c hc => (List.mem_append.1 hc).elim (h c) (hbs c)
  | false =>
    obtain ⟨before, after, hbefore, hafter, rfl⟩ := h
    refine ⟨before, after ++ bs, hbefore, ?_, by rw [List.append_assoc, List.cons_append]⟩
    exact fun c hc => (List.mem_append.1 hc).elim (hafter c) (hbs c)

/-- The reader takes off blanks and what spells its value, with no more than `depth` brackets inside
each other. -/
def ReadsSpelled (depth : Nat) (value : List Char → Except Fault (Value × List Char)) : Prop :=
  ∀ cs v rest, value cs = .ok (v, rest) →
    ∃ bs part, Blanks bs ∧ cs = bs ++ (part ++ rest) ∧ Spells part v ∧ v.nesting ≤ depth

/-- The items of an array are spelled. -/
theorem spells_of_readItems {value : List Char → Except Fault (Value × List Char)} {depth : Nat}
    (hvalue : ReadsSpelled depth value) {rounds : Nat} {first : Bool} {before items : List Value}
    {cs rest : List Char} (h : readItems value rounds first before cs = .ok (items, rest)) :
    ∃ part vs, cs = part ++ rest ∧ items = before.reverse ++ vs ∧ SpellsItems first part vs ∧
      Value.nestingItems vs ≤ depth := by
  induction rounds generalizing first before cs with
  | zero => cases h
  | succ rounds ih =>
    rw [readItems] at h
    obtain ⟨⟨more, mid⟩, hnext, hmore⟩ := bind_eq_ok_iff.1 h
    cases more with
    | false =>
      cases hmore
      obtain ⟨bs, hbs, rfl⟩ := nextItem_eq_ok_false_iff.1 hnext
      exact ⟨bs ++ [']'], [], by rw [List.append_assoc]; rfl, (List.append_nil _).symm,
        .close hbs, Nat.zero_le _⟩
    | true =>
      obtain ⟨⟨v, left⟩, hv, hothers⟩ := bind_eq_ok_iff.1 hmore
      obtain ⟨sep, hsep, rfl, -⟩ := nextItem_eq_ok_true_iff.1 hnext
      obtain ⟨bs, part, hbs, rfl, hspells, hdepth⟩ := hvalue mid v left hv
      obtain ⟨others, vs, rfl, rfl, hvs, hdepths⟩ := ih hothers
      refine ⟨(sep ++ bs) ++ (part ++ others), v :: vs, ?_, ?_, .item (hsep.append hbs) hspells hvs,
        Nat.max_le.2 ⟨hdepth, hdepths⟩⟩
      · simp only [List.append_assoc]
      · rw [List.reverse_cons, List.append_assoc]
        rfl

/-- What a member consists of. -/
theorem spells_of_member {first : Bool} {cs mid bs part left : List Char} {name : String} {v : Value}
    (hkey : nextKey first cs = .ok (some name, mid))
    (hcolon : readColon mid = .ok (bs ++ (part ++ left))) (hbs : Blanks bs) (hspells : Spells part v) :
    ∃ front, cs = front ++ left ∧ ∀ rest members, SpellsMembers false rest members →
      SpellsMembers first (front ++ rest) ((name, v) :: members) := by
  obtain ⟨sep, key, hsep, rfl, hname⟩ := nextKey_eq_ok_some_iff.1 hkey
  obtain ⟨spelled, rfl, hspelled⟩ := cutsFreely_readString key name mid hname
  obtain ⟨before, hbefore, rfl⟩ := readColon_eq_ok_iff.1 hcolon
  have hkey := hspelled []
  rw [List.append_nil] at hkey
  refine ⟨sep ++ '"' :: (spelled ++ (before ++ ':' :: (bs ++ part))), ?_, fun rest ms hrest => ?_⟩
  · simp only [List.append_assoc, List.cons_append]
  · have hmember := SpellsMembers.member hsep hkey hbefore hbs hspells hrest
    simpa only [List.append_assoc, List.cons_append] using hmember

/-- The members of an object are spelled. -/
theorem spells_of_readMembers {value : List Char → Except Fault (Value × List Char)} {depth : Nat}
    (hvalue : ReadsSpelled depth value) {rounds : Nat} {first : Bool}
    {before members : List (String × Value)} {cs rest : List Char}
    (h : readMembers value rounds first before cs = .ok (members, rest)) :
    ∃ part ms, cs = part ++ rest ∧ members = before.reverse ++ ms ∧ SpellsMembers first part ms ∧
      Value.nestingMembers ms ≤ depth := by
  induction rounds generalizing first before cs with
  | zero => cases h
  | succ rounds ih =>
    rw [readMembers] at h
    obtain ⟨⟨name, mid⟩, hnext, hmore⟩ := bind_eq_ok_iff.1 h
    cases name with
    | none =>
      cases hmore
      obtain ⟨bs, hbs, rfl⟩ := nextKey_eq_ok_none_iff.1 hnext
      exact ⟨bs ++ ['\x7d'], [], by rw [List.append_assoc]; rfl, (List.append_nil _).symm,
        .close hbs, Nat.zero_le _⟩
    | some name =>
      obtain ⟨cs', hcolon, hread⟩ := bind_eq_ok_iff.1 hmore
      obtain ⟨⟨v, left⟩, hv, hothers⟩ := bind_eq_ok_iff.1 hread
      obtain ⟨bs, part, hbs, rfl, hspells, hdepth⟩ := hvalue cs' v left hv
      obtain ⟨front, rfl, hfront⟩ := spells_of_member hnext hcolon hbs hspells
      obtain ⟨others, ms, rfl, rfl, hms, hdepths⟩ := ih hothers
      refine ⟨front ++ others, (name, v) :: ms, by rw [List.append_assoc], ?_,
        hfront others ms hms, Nat.max_le.2 ⟨hdepth, hdepths⟩⟩
      rw [List.reverse_cons, List.append_assoc]
      rfl

theorem nesting_of_readScalar {cs rest : List Char} {v : Value} (h : readScalar cs = .ok (v, rest)) :
    v.nesting = 0 := by
  cases cs with
  | nil => cases h
  | cons c cs =>
    rw [readScalar] at h
    split_ifs at h
    all_goals
      obtain ⟨_, _, hread⟩ := bind_eq_ok_iff.1 h
      cases hread
      rw [Value.nesting]

/-- **What is read is spelled.** -/
theorem spells_of_readValue (fuel depth : Nat) : ReadsSpelled depth (readValue fuel depth) := by
  induction depth using Nat.strongRecOn with
  | ind depth ih =>
    intro cs v rest h
    obtain ⟨bs, hbs, hcs⟩ := exists_blanks cs
    unfold readValue at h
    split at h
    · cases h
    rename_i c left hskip
    rw [hskip] at hcs
    split_ifs at h with harray hobject
    · cases depth with
      | zero => cases h
      | succ depth =>
        obtain ⟨⟨items, _⟩, hitems, hv⟩ := bind_eq_ok_iff.1 h
        cases hv
        obtain ⟨part, vs, rfl, rfl, hvs, hdepth⟩ :=
          spells_of_readItems (ih depth (Nat.lt_succ_self depth)) hitems
        refine ⟨bs, '[' :: part, hbs, by rw [hcs, harray, List.cons_append], .array hvs, ?_⟩
        rw [Value.nesting]
        exact (Nat.add_comm 1 _).trans_le (Nat.succ_le_succ hdepth)
    · cases depth with
      | zero => cases h
      | succ depth =>
        obtain ⟨⟨members, _⟩, hmembers, hv⟩ := bind_eq_ok_iff.1 h
        cases hv
        obtain ⟨part, ms, rfl, rfl, hms, hdepth⟩ :=
          spells_of_readMembers (ih depth (Nat.lt_succ_self depth)) hmembers
        refine ⟨bs, '\x7b' :: part, hbs, by rw [hcs, hobject, List.cons_append], .object hms, ?_⟩
        rw [Value.nesting]
        exact (Nat.add_comm 1 _).trans_le (Nat.succ_le_succ hdepth)
    · obtain ⟨part, hpart, hmore⟩ := cuts_readScalar _ v rest h
      have halone := hmore [] (.inl endsNumber_nil)
      rw [List.append_nil] at halone
      refine ⟨bs, part, hbs, by rw [hcs, hpart], .scalar halone, ?_⟩
      rw [nesting_of_readScalar halone]
      exact Nat.zero_le depth

/-! ### Whole texts -/

/-- Nothing but blanks is left of a whole text that is read. -/
theorem readText_eq_ok_iff {read : Nat → List Char → Except Fault (α × List Char)} {text : String}
    {x : α} : readText read text = .ok x ↔
      ∃ rest, Blanks rest ∧ read (text.toList.length + 1) text.toList = .ok (x, rest) := by
  constructor
  · intro h
    obtain ⟨⟨_, rest⟩, hread, hrest⟩ := bind_eq_ok_iff.1 h
    dsimp only at hrest
    split_ifs at hrest with hblank
    cases hrest
    obtain ⟨bs, hbs, hleft⟩ := exists_blanks rest
    rw [List.isEmpty_iff.1 hblank, List.append_nil] at hleft
    exact ⟨rest, hleft ▸ hbs, hread⟩
  · rintro ⟨rest, hblank, hread⟩
    have hend : skipBlanks rest = [] := by
      rw [← List.append_nil rest, skipBlanks_append hblank]
      rfl
    refine bind_eq_ok_iff.2 ⟨(x, rest), hread, ?_⟩
    simp only [hend]
    rfl

theorem endsNumber_of_blanks {bs : List Char} (h : Blanks bs) : EndsNumber bs := by
  rw [← List.append_nil bs]
  exact endsNumber_append h endsNumber_nil

/-- **A text is read as the value that it spells**, and as no other, if no more brackets lie inside each
other than may be open. -/
theorem readText_value_iff {depth : Nat} {text : String} {v : Value} :
    readText (readValue · depth) text = .ok v ↔ TextSpells text v ∧ v.nesting ≤ depth := by
  rw [readText_eq_ok_iff]
  constructor
  · rintro ⟨rest, hblank, hread⟩
    obtain ⟨bs, part, hbs, hcs, hspells, hdepth⟩ := spells_of_readValue _ depth _ _ _ hread
    exact ⟨⟨bs, part, rest, hbs, hspells, hblank, hcs⟩, hdepth⟩
  · rintro ⟨⟨before, cs, after, hbefore, hspells, hafter, htext⟩, hdepth⟩
    have hfuel : cs.length ≤ text.toList.length + 1 := by
      rw [htext, List.length_append, List.length_append]
      omega
    have hread := readValue_of_spells hspells hdepth hfuel (endsNumber_of_blanks hafter)
    rw [← readValue_append hbefore, ← htext] at hread
    exact ⟨after, hafter, hread⟩

/-- A text spells no two values. -/
theorem TextSpells.unique {text : String} {v w : Value} (hv : TextSpells text v)
    (hw : TextSpells text w) : v = w := by
  have hreadv := readText_value_iff.2 ⟨hv, Nat.le_max_left v.nesting w.nesting⟩
  have hreadw := readText_value_iff.2 ⟨hw, Nat.le_max_right v.nesting w.nesting⟩
  exact Except.ok.inj (hreadv.symm.trans hreadw)

end AccessGraph.Json
