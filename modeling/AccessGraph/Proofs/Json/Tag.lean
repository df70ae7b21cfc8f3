import AccessGraph.Proofs.Json.Spelling
import AccessGraph.Proofs.Json.Variant
/-!
# The variant of a text is that of its value

A value of several variants is read with its tag checked on the way, wherever it stands. The same comes
out if the text is read as any value first and the variant is looked for afterwards, except that a text
has to name its variant and must not number it.

* `Json.Value.TagNamed` : the tag of a value, if it has one, is a name.
* `Json.Tagged.read_of_spells`, `Json.Tagged.spells_of_read` : **the value of several variants that a
  text starts with is that of the value that is spelled there.**
* `Json.readText_tagged_iff` : the same of whole texts.
-/

namespace AccessGraph.Json

variable {σ : Type} {C : σ → Type} {α : Type} {choice : Choice C α}

/-- All members that are tags are names. -/
def TagsNamed (members : List (String × Value)) : Prop :=
  ∀ m ∈ members, m.1 = tagName → ∃ name, m.2 = .string name

/-- The tag of a value, if it has one, is a name. -/
def Value.TagNamed : Value → Prop
  | .array (tag :: _) => ∃ name, tag = .string name
  | .object members => TagsNamed members
  | _ => True

/-! ### Tags -/

/-- A string is spelled between quotes. -/
theorem spells_string_iff {cs : List Char} {s : String} :
    Spells cs (.string s) ↔ ∃ part, cs = '"' :: part ∧ readString part = .ok (s, []) := by
  constructor
  · intro h
    cases h with
    | scalar h =>
      cases cs with
      | nil => cases h
      | cons c cs =>
        rw [readScalar] at h
        split_ifs at h with hnull htrue hfalse hquote hnumber
        · obtain ⟨_, -, heq⟩ := bind_eq_ok_iff.1 h
          cases heq
        · obtain ⟨_, -, heq⟩ := bind_eq_ok_iff.1 h
          cases heq
        · obtain ⟨_, -, heq⟩ := bind_eq_ok_iff.1 h
          cases heq
        · obtain ⟨⟨_, _⟩, hread, heq⟩ := bind_eq_ok_iff.1 h
          cases heq
          exact ⟨cs, by rw [hquote], hread⟩
        · obtain ⟨⟨_, _⟩, -, heq⟩ := bind_eq_ok_iff.1 h
          cases heq
  · rintro ⟨part, rfl, h⟩
    refine .scalar ?_
    rw [readScalar, if_neg (by decide), if_neg (by decide), if_neg (by decide), if_pos rfl]
    exact bind_eq_ok_iff.2 ⟨(s, []), h, rfl⟩

/-- What a string is written as spells it. -/
theorem spells_writeString (s : String) : Spells (writeString s) (.string s) :=
  spells_string_iff.2 ⟨_, rfl, readString_escaped s []⟩

namespace Choice

/-- The name of a variant is read where it is spelled. -/
theorem readTag_of_spells {bs cs : List Char} {name : String} {variant : Variant C α}
    (hbs : Blanks bs) (h : Spells cs (.string name)) (hnamed : choice.named name = .ok variant)
    (rest : List Char) : choice.readTag (bs ++ (cs ++ rest)) = .ok (variant, rest) := by
  obtain ⟨part, rfl, hpart⟩ := spells_string_iff.1 h
  rw [readTag, skipBlanks_append hbs, List.cons_append, skipBlanks_cons rfl]
  refine bind_eq_ok_iff.2 ⟨(name, rest), readString_append hpart rest, ?_⟩
  exact bind_eq_ok_iff.2 ⟨variant, hnamed, rfl⟩

/-- The name of a variant is spelled where it is read. -/
theorem spells_of_readTag {cs rest : List Char} {variant : Variant C α}
    (h : choice.readTag cs = .ok (variant, rest)) : ∃ bs part name, Blanks bs ∧
      cs = bs ++ (part ++ rest) ∧ Spells part (.string name) ∧ choice.named name = .ok variant := by
  obtain ⟨bs, hbs, hcs⟩ := exists_blanks cs
  unfold readTag at h
  split at h
  · cases h
  rename_i c left hskip
  rw [hskip] at hcs
  split_ifs at h with hquote
  obtain ⟨⟨name, _⟩, hstring, hname⟩ := bind_eq_ok_iff.1 h
  obtain ⟨_, hnamed, hvariant⟩ := bind_eq_ok_iff.1 hname
  cases hvariant
  obtain ⟨part, rfl, hpart⟩ := cutsFreely_readString left name rest hstring
  have halone := hpart []
  rw [List.append_nil] at halone
  refine ⟨bs, '"' :: part, name, hbs, ?_, spells_string_iff.2 ⟨part, rfl, halone⟩, hnamed⟩
  rw [hcs, hquote, List.cons_append]

end Choice

namespace Tagged

/-! ### What is spelled is read -/

/-- The members of an object are read, and its tag is found among them. -/
theorem readMembers_of_spells {fuel depth rounds : Nat} {first : Bool} {cs : List Char}
    {members : List (String × Value)} (h : SpellsMembers first cs members)
    (hdepth : Value.nestingMembers members ≤ depth) (hfuel : cs.length ≤ fuel)
    (hrounds : cs.length ≤ rounds) (hnames : TagsNamed members) {tag : Option (Variant C α)}
    {before : List (String × Value)} {t : Tagged C α}
    (ht : ofMembers choice tag before members = .ok t) (rest : List Char) :
    readMembers choice (readValue fuel depth) rounds first tag before (cs ++ rest) =
      .ok (t, rest) := by
  induction members generalizing rounds first cs tag before with
  | nil =>
    cases h with
    | @close _ bs hbs =>
      rw [List.length_append, List.length_singleton] at hrounds
      rw [List.append_assoc]
      cases tag with
      | none => cases ht
      | some variant =>
        cases ht
        exact readMembers_close (nextKey_close hbs first rest) (by omega) variant before
  | cons m members ih =>
    cases h with
    | @member _ _ _ _ bs' cs left name v _ hsep hkey hbefore hafter h hrest =>
      rw [Value.nestingMembers] at hdepth
      simp only [List.length_append, List.length_cons] at hfuel hrounds
      obtain ⟨mid, hname, hcolon⟩ := exists_nextKey hsep hkey hbefore (bs' ++ (cs ++ left)) rest
      rw [List.append_assoc, List.append_assoc] at hcolon
      have hothers : TagsNamed members := fun m hm => hnames m (List.mem_cons_of_mem _ hm)
      by_cases htag : name = tagName
      · -- the tag is read on its own
        obtain ⟨label, rfl⟩ := hnames (name, v) List.mem_cons_self htag
        rw [htag] at hname
        cases tag with
        | some variant =>
          rw [ofMembers, if_pos htag] at ht
          cases ht
        | none =>
          rw [ofMembers, if_pos htag] at ht
          obtain ⟨variant, hnamed, ht⟩ := bind_eq_ok_iff.1 ht
          have hvariant := Choice.readTag_of_spells hafter h hnamed (left ++ rest)
          rw [readMembers_tag hname hcolon hvariant (by omega)]
          exact ih hrest (by omega) (by omega) (by omega) hothers ht
      · have hnext : ofMembers choice tag ((name, v) :: before) members = .ok t := by
          cases tag <;> rwa [ofMembers, if_neg htag] at ht
        have hvalue := readValue_of_spells h (by omega : _ ≤ depth) (by omega : _ ≤ fuel)
          (hrest.endsNumber rest)
        rw [readMembers_step htag hname hcolon (by omega), readValue_append hafter, hvalue]
        exact ih hrest (by omega) (by omega) (by omega) hothers hnext

/-- Blanks in front of a value of several variants are skipped. -/
theorem read_append {bs : List Char} (h : Blanks bs) (fuel : Nat) (cs : List Char) :
    read choice fuel (bs ++ cs) = read choice fuel cs := by
  unfold read
  rw [skipBlanks_append h]

/-- **The value of several variants that is spelled is read**, if its tag is a name and no more brackets
lie inside each other than may be open. -/
theorem read_of_spells {fuel : Nat} {cs : List Char} {v : Value} (h : Spells cs v)
    (hdepth : v.nesting ≤ nestingLimit) (hfuel : cs.length ≤ fuel) (hname : v.TagNamed)
    {t : Tagged C α} (ht : ofValue choice v = .ok t) (rest : List Char) :
    read choice fuel (cs ++ rest) = .ok (t, rest) := by
  cases h with
  | scalar h =>
    have hnesting := nesting_of_readScalar h
    cases v with
    | array | object =>
      rw [Value.nesting] at hnesting
      omega
    | _ => cases ht
  | array h =>
    rw [Value.nesting] at hdepth
    rw [List.length_cons] at hfuel
    cases h with
    | close => cases ht
    | item hsep h hrest =>
      obtain ⟨name, rfl⟩ := hname
      obtain ⟨variant, hnamed, ht⟩ := bind_eq_ok_iff.1 ht
      cases ht
      rename_i sep label left items
      rw [Value.nestingItems] at hdepth
      simp only [List.length_append] at hfuel
      rw [List.cons_append, read, skipBlanks_cons rfl]
      refine bind_eq_ok_iff.2 ⟨_, nextItem_of_spells hsep h left rest, ?_⟩
      refine bind_eq_ok_iff.2 ⟨_, Choice.readTag_of_spells blanks_nil h hnamed (left ++ rest), ?_⟩
      refine bind_eq_ok_iff.2 ⟨_, readItems_of_spells hrest ?_ (by omega) (by omega) [] rest, rfl⟩
      unfold nestingLimit at hdepth ⊢
      omega
  | object h =>
    rw [Value.nesting] at hdepth
    rw [List.length_cons] at hfuel
    rw [List.cons_append, read, skipBlanks_cons rfl]
    refine readMembers_of_spells h ?_ (by omega) (by omega) hname ht rest
    unfold nestingLimit at hdepth ⊢
    omega

/-! ### What is read is spelled -/

/-- The members of an object are spelled, the tag among them. -/
theorem spells_of_readMembers {value : List Char → Except Fault (Value × List Char)} {depth : Nat}
    (hvalue : ReadsSpelled depth value) {rounds : Nat} {first : Bool} {tag : Option (Variant C α)}
    {before : List (String × Value)} {cs rest : List Char} {t : Tagged C α}
    (h : readMembers choice value rounds first tag before cs = .ok (t, rest)) :
    ∃ part members, cs = part ++ rest ∧ SpellsMembers first part members ∧
      Value.nestingMembers members ≤ depth ∧ TagsNamed members ∧
        ofMembers choice tag before members = .ok t := by
  induction rounds generalizing first tag before cs with
  | zero => cases h
  | succ rounds ih =>
    rw [readMembers] at h
    obtain ⟨⟨name, mid⟩, hnext, hmore⟩ := bind_eq_ok_iff.1 h
    cases name with
    | none =>
      obtain ⟨bs, hbs, rfl⟩ := nextKey_eq_ok_none_iff.1 hnext
      cases tag with
      | none => cases hmore
      | some variant =>
        cases hmore
        exact ⟨bs ++ ['\x7d'], [], by rw [List.append_assoc]; rfl, .close hbs, Nat.zero_le _,
          (by rintro m ⟨⟩), rfl⟩
    | some name =>
      by_cases htag : name = tagName
      · simp only [if_pos htag] at hmore
        cases tag with
        | some variant => cases hmore
        | none =>
          obtain ⟨cs', hcolon, hread⟩ := bind_eq_ok_iff.1 hmore
          obtain ⟨⟨variant, left⟩, hvariant, hothers⟩ := bind_eq_ok_iff.1 hread
          obtain ⟨bs, part, label, hbs, rfl, hspells, hnamed⟩ := Choice.spells_of_readTag hvariant
          obtain ⟨front, rfl, hfront⟩ := spells_of_member hnext hcolon hbs hspells
          obtain ⟨others, ms, rfl, hms, hdepth, hnames, ht⟩ := ih hothers
          refine ⟨front ++ others, (name, .string label) :: ms, by rw [List.append_assoc],
            hfront others ms hms, ?_, ?_, ?_⟩
          · rw [Value.nestingMembers, Value.nesting]
            exact Nat.max_le.2 ⟨Nat.zero_le _, hdepth⟩
          · exact List.forall_mem_cons.2 ⟨fun _ => ⟨label, rfl⟩, hnames⟩
          · rw [ofMembers, if_pos htag]
            exact bind_eq_ok_iff.2 ⟨variant, hnamed, ht⟩
      · simp only [if_neg htag] at hmore
        obtain ⟨cs', hcolon, hread⟩ := bind_eq_ok_iff.1 hmore
        obtain ⟨⟨v, left⟩, hv, hothers⟩ := bind_eq_ok_iff.1 hread
        obtain ⟨bs, part, hbs, rfl, hspells, hdepth⟩ := hvalue cs' v left hv
        obtain ⟨front, rfl, hfront⟩ := spells_of_member hnext hcolon hbs hspells
        obtain ⟨others, ms, rfl, hms, hdepths, hnames, ht⟩ := ih hothers
        refine ⟨front ++ others, (name, v) :: ms, by rw [List.append_assoc],
          hfront others ms hms, Nat.max_le.2 ⟨hdepth, hdepths⟩, ?_, ?_⟩
        · exact List.forall_mem_cons.2 ⟨fun hname => absurd hname htag, hnames⟩
        · cases tag <;> rwa [ofMembers, if_neg htag]

/-- **The value of several variants that is read is spelled.** -/
theorem spells_of_read {fuel : Nat} {cs rest : List Char} {t : Tagged C α}
    (h : read choice fuel cs = .ok (t, rest)) : ∃ bs part v, Blanks bs ∧ cs = bs ++ (part ++ rest) ∧
      Spells part v ∧ v.nesting ≤ nestingLimit ∧ v.TagNamed ∧ ofValue choice v = .ok t := by
  obtain ⟨bs, hbs, hcs⟩ := exists_blanks cs
  have hlimit : nestingLimit - 1 + 1 = nestingLimit := rfl
  unfold read at h
  split at h
  · cases h
  rename_i c left hskip
  rw [hskip] at hcs
  split_ifs at h with harray hobject
  · obtain ⟨⟨more, mid⟩, hnext, hmore⟩ := bind_eq_ok_iff.1 h
    cases more with
    | false => cases hmore
    | true =>
      obtain ⟨⟨variant, mid'⟩, hvariant, hread⟩ := bind_eq_ok_iff.1 hmore
      obtain ⟨⟨items, _⟩, hitems, ht⟩ := bind_eq_ok_iff.1 hread
      cases ht
      obtain ⟨sep, hsep, rfl, -⟩ := nextItem_eq_ok_true_iff.1 hnext
      obtain ⟨bs', label, name, hbs', rfl, hspells, hnamed⟩ := Choice.spells_of_readTag hvariant
      obtain ⟨others, vs, rfl, rfl, hvs, hdepth⟩ :=
        spells_of_readItems (spells_of_readValue fuel (nestingLimit - 1)) hitems
      refine ⟨bs, '[' :: (sep ++ bs' ++ (label ++ others)), .array (.string name :: items), hbs, ?_,
        .array (.item (hsep.append hbs') hspells hvs), ?_, ⟨name, rfl⟩, ?_⟩
      · rw [hcs, harray]
        simp only [List.append_assoc, List.cons_append]
      · rw [Value.nesting, Value.nestingItems, Value.nesting, Nat.zero_max, Nat.add_comm, ← hlimit]
        exact Nat.succ_le_succ hdepth
      · exact bind_eq_ok_iff.2 ⟨variant, hnamed, rfl⟩
  · obtain ⟨part, members, rfl, hmembers, hdepth, hnames, ht⟩ :=
      spells_of_readMembers (spells_of_readValue fuel (nestingLimit - 1)) h
    refine ⟨bs, '\x7b' :: part, .object members, hbs, by rw [hcs, hobject, List.cons_append],
      .object hmembers, ?_, hnames, ht⟩
    rw [Value.nesting, Nat.add_comm, ← hlimit]
    exact Nat.succ_le_succ hdepth

end Tagged

/-! ### Whole texts -/

/-- A text is read as a value of several variants if it spells one whose tag is a name. -/
theorem readText_tagged_iff {β : Type} {finish : Tagged C α → Except Fault β} {text : String} {x : β} :
    readText (fun fuel cs => do
      let (t, rest) ← Tagged.read choice fuel cs
      .ok (← finish t, rest)) text = .ok x ↔
    ∃ v, TextSpells text v ∧ v.nesting ≤ nestingLimit ∧ v.TagNamed ∧
      (Tagged.ofValue choice v >>= finish) = .ok x := by
  rw [readText_eq_ok_iff]
  constructor
  · rintro ⟨rest, hblank, h⟩
    obtain ⟨⟨t, _⟩, hread, hfinish⟩ := bind_eq_ok_iff.1 h
    obtain ⟨y, hy, heq⟩ := bind_eq_ok_iff.1 hfinish
    cases heq
    obtain ⟨bs, part, v, hbs, hcs, hspells, hdepth, hname, ht⟩ := Tagged.spells_of_read hread
    exact ⟨v, ⟨bs, part, rest, hbs, hspells, hblank, hcs⟩, hdepth, hname,
      bind_eq_ok_iff.2 ⟨t, ht, hy⟩⟩
  · rintro ⟨v, ⟨before, cs, after, hbefore, hspells, hafter, htext⟩, hdepth, hname, h⟩
    obtain ⟨t, ht, hx⟩ := bind_eq_ok_iff.1 h
    have hfuel : cs.length ≤ text.toList.length + 1 := by
      rw [htext, List.length_append, List.length_append]
      omega
    have hread := Tagged.read_of_spells hspells hdepth hfuel hname ht after
    rw [← Tagged.read_append hbefore, ← htext] at hread
    exact ⟨after, hafter, bind_eq_ok_iff.2 ⟨(t, after), hread, bind_eq_ok_iff.2 ⟨x, hx, rfl⟩⟩⟩

end AccessGraph.Json
