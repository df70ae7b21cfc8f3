import AccessGraph.Json.Variant
import AccessGraph.Proofs.Json.Record
import AccessGraph.Proofs.Json.Value
/-!
# Values of several variants are read back

A printer writes the tag first and the fields behind it in order. Such a value is read, and decoded,
to the variant of its tag with the values of its fields.

* `Json.Choice.Distinct` : the names in a choice tell its variants apart, and the fields of each.
* `Json.Choice.Given` : a value with the tag first, and what it stands for.
* `Json.Choice.Given.ofValue` : **it is decoded to what it stands for.**
* `Json.Tagged.read_write` : **its text is read back**, exactly if its brackets lie no deeper inside
  each other than is allowed.
-/

namespace AccessGraph.Json

variable {σ : Type} {C : σ → Type} {α : Type}

namespace Choice

/-- The names of a choice are all different: those of its variants, and those of the members of
each, the tag among them. -/
structure Distinct (choice : Choice C α) : Prop where
  /-- The variants have different names. -/
  variants : (choice.variants.map (·.name)).Nodup
  /-- The members of a variant have different names. -/
  members : ∀ variant ∈ choice.variants, (tagName :: variant.fields.map (·.name)).Nodup

/-- A variant is found by its name. -/
theorem Distinct.named {choice : Choice C α} (h : choice.Distinct) {variant : Variant C α}
    (hmem : variant ∈ choice.variants) : choice.named variant.name = .ok variant := by
  rw [Choice.named, find?_of_nodup (·.name) h.variants hmem]

/-- The value has the tag of a variant in front of members in the order of its fields, and stands
for what the variant makes of the values that these give. -/
def Given (choice : Choice C α) (P : (s : σ) → Value → C s → Prop) (v : Value) (x : α) : Prop :=
  ∃ variant ∈ choice.variants, ∃ fields record, Record.Given P variant.fields fields record ∧
    v = .object ((tagName, .string variant.name) :: fields) ∧ x = variant.build record

/-- The variant at a position with members in order. -/
theorem given_at (choice : Choice C α) {P : (s : σ) → Value → C s → Prop} (i : Nat)
    (hi : i < choice.variants.length) {fields : List (String × Value)}
    (record : Record C choice.variants[i].fields)
    (h : Record.Given P choice.variants[i].fields fields record) :
    choice.Given P (.object ((tagName, .string choice.variants[i].name) :: fields))
      (choice.variants[i].build record) :=
  ⟨_, List.getElem_mem hi, fields, record, h, rfl, rfl⟩

end Choice

namespace Tagged

/-- Members behind the tag are collected as they are. -/
theorem ofMembers_some (choice : Choice C α) (variant : Variant C α)
    (before : List (String × Value)) {members : List (String × Value)}
    (h : tagName ∉ members.map (·.1)) :
    ofMembers choice (some variant) before members =
      .ok ⟨variant, .members (before.reverse ++ members)⟩ := by
  induction members generalizing before with
  | nil => rw [ofMembers, List.append_nil]
  | cons m members ih =>
    obtain ⟨name, v⟩ := m
    obtain ⟨hne, hrest⟩ := not_or.1 (mt List.mem_cons.2 h)
    rw [ofMembers, if_neg (Ne.symm hne), ih _ hrest, List.reverse_cons, List.append_assoc]
    rfl

/-- The fields in order are decoded to what the variant makes of their values. -/
theorem decode_of_given {value : (s : σ) → Value → Except Fault (C s)} {variant : Variant C α}
    (hnames : (variant.fields.map (·.name)).Nodup) {fields : List (String × Value)}
    {record : Record C variant.fields}
    (h : Record.Given (fun s v x => value s v = .ok x) variant.fields fields record) :
    decode value ⟨variant, .members fields⟩ = .ok (variant.build record) := by
  have hcollect := Slots.collect_of_given value hnames h
  show (fields.foldlM (Slots.putMember value variant.fields) (Slots.empty variant.fields) >>=
    fun slots => Slots.close variant.fields slots >>= fun record =>
      .ok (variant.build record)) = _
  rw [← bind_assoc, hcollect]
  rfl

section Write

variable {spacing : Spacing} {fuel : Nat} {choice : Choice C α}
  {value : List Char → Except Fault (Value × List Char)}

/-- The tag is read back. -/
theorem readTag_write (hs : spacing.IsBlank) (hchoice : choice.Distinct)
    {variant : Variant C α} (hmem : variant ∈ choice.variants) (rest : List Char) :
    choice.readTag (spacing.afterColon ++ (writeString variant.name ++ rest)) =
      .ok (variant, rest) := by
  rw [Choice.readTag, skipBlanks_append hs.afterColon, writeString, List.cons_append,
    skipBlanks_cons rfl, List.append_assoc, List.singleton_append]
  simp only [if_true, readString_escaped]
  show (choice.named variant.name >>= fun tag => .ok (tag, rest)) = _
  rw [hchoice.named hmem]
  rfl

/-- The round over the tag. -/
theorem readMembers_tag {first : Bool} {rounds : Nat} {cs mid cs' rest : List Char}
    {variant : Variant C α} (hkey : nextKey first cs = .ok (some tagName, mid))
    (hcolon : readColon mid = .ok cs') (htag : choice.readTag cs' = .ok (variant, rest))
    (hrounds : 0 < rounds) (before : List (String × Value)) :
    readMembers choice value rounds first none before cs =
      readMembers choice value (rounds - 1) false (some variant) before rest := by
  obtain ⟨rounds, rfl⟩ := Nat.exists_eq_add_one_of_ne_zero (Nat.ne_of_gt hrounds)
  rw [readMembers, hkey]
  simp only [bind, Except.bind, if_true, hcolon, htag, Nat.add_sub_cancel]

/-- The round over another member. -/
theorem readMembers_step {first : Bool} {rounds : Nat} {cs mid cs' : List Char} {name : String}
    (hname : name ≠ tagName) (hkey : nextKey first cs = .ok (some name, mid))
    (hcolon : readColon mid = .ok cs') (hrounds : 0 < rounds) (tag : Option (Variant C α))
    (before : List (String × Value)) :
    readMembers choice value rounds first tag before cs =
      (value cs' >>= fun p =>
        readMembers choice value (rounds - 1) false tag ((name, p.1) :: before) p.2) := by
  obtain ⟨rounds, rfl⟩ := Nat.exists_eq_add_one_of_ne_zero (Nat.ne_of_gt hrounds)
  rw [readMembers, hkey]
  simp only [bind, Except.bind, if_neg hname, hcolon, Nat.add_sub_cancel]

theorem readMembers_close {first : Bool} {rounds : Nat} {cs rest : List Char}
    (h : nextKey first cs = .ok (none, rest)) (hrounds : 0 < rounds) (variant : Variant C α)
    (before : List (String × Value)) :
    readMembers choice value rounds first (some variant) before cs =
      .ok (⟨variant, .members before.reverse⟩, rest) := by
  obtain ⟨rounds, rfl⟩ := Nat.exists_eq_add_one_of_ne_zero (Nat.ne_of_gt hrounds)
  rw [readMembers, h]
  rfl

/-- The members behind the tag are read back. -/
theorem readMembers_writeMembers (hs : spacing.IsBlank) (variant : Variant C α)
    (level depth : Nat) {bs : List Char} (hbs : Blanks bs) (rest : List Char)
    {members : List (String × Value)} (hreadable : Value.ReadableMembers members)
    (htag : tagName ∉ members.map (·.1))
    (hfuel : (Value.writeMembers spacing level members).length ≤ fuel) {rounds : Nat}
    (hrounds : members.length < rounds) (before : List (String × Value)) :
    readMembers choice (readValue fuel depth) rounds false (some variant) before
      (Value.writeMembers spacing level members ++ (bs ++ '\x7d' :: rest)) =
        within depth (Value.nestingMembers members)
          (⟨variant, .members (before.reverse ++ members)⟩, rest) := by
  induction members generalizing rounds before with
  | nil =>
    rw [Value.nestingMembers, within_zero, List.append_nil]
    exact readMembers_close (nextKey_close hbs false rest) hrounds variant before
  | cons m members ih =>
    obtain ⟨name, v⟩ := m
    obtain ⟨hv, hmembers⟩ := hreadable
    obtain ⟨hname, hothers⟩ := not_or.1 (mt List.mem_cons.2 htag)
    rw [Value.writeMembers] at hfuel ⊢
    simp only [List.cons_append, List.append_assoc, List.length_cons,
      List.length_append] at hfuel hrounds ⊢
    have hclose : EndsNumber (bs ++ '\x7d' :: rest) :=
      endsNumber_append hbs (endsNumber_cons (by decide))
    rw [readMembers_step (Ne.symm hname) (nextKey_comma (hs.gap level) name _) (readColon_cons _)
        (by omega), readValue_append hs.afterColon,
      readValue_write hs v _ _ _ hv (by omega) (endsNumber_writeMembers _ members hclose)]
    have hrest : readMembers choice (readValue fuel depth) (rounds - 1) false (some variant)
        ((name, v) :: before) (Value.writeMembers spacing level members ++ (bs ++ '\x7d' :: rest)) =
          within depth (Value.nestingMembers members)
            (⟨variant, .members (((name, v) :: before).reverse ++ members)⟩, rest) :=
      ih hmembers hothers (by omega) (by omega) _
    rw [List.reverse_cons, List.append_assoc] at hrest
    exact within_bind hrest

/-- **An object with the tag first is read back**, exactly if its brackets lie no deeper inside each
other than is allowed. -/
theorem read_write (hs : spacing.IsBlank) (hchoice : choice.Distinct)
    {variant : Variant C α} (hmem : variant ∈ choice.variants) {fields : List (String × Value)}
    (hreadable : Value.ReadableMembers fields) (htag : tagName ∉ fields.map (·.1)) (level : Nat)
    (rest : List Char)
    (hfuel : (Value.write spacing level
      (.object ((tagName, .string variant.name) :: fields))).length ≤ fuel) :
    read choice fuel
      (Value.write spacing level (.object ((tagName, .string variant.name) :: fields)) ++ rest) =
        within nestingLimit (1 + Value.nestingMembers fields)
          (⟨variant, .members fields⟩, rest) := by
  rw [Value.write, Value.write] at hfuel ⊢
  simp only [List.cons_append, List.append_assoc, List.nil_append, List.length_cons,
    List.length_append] at hfuel ⊢
  have hlength := length_le_writeMembers spacing (level + 1) fields
  rw [read, skipBlanks_cons rfl]
  -- one bracket is open already, and one less may be opened inside
  show readMembers choice (readValue fuel (nestingLimit - 1)) fuel true none [] _ = _
  rw [readMembers_tag (nextKey_first (hs.gap (level + 1)) tagName _) (readColon_cons _)
      (readTag_write hs hchoice hmem _) (by omega),
    readMembers_writeMembers hs variant (level + 1) (nestingLimit - 1) (hs.gap level) rest
      hreadable htag (by omega) (by omega) []]
  exact (within_succ (nestingLimit - 1) _ _).symm

end Write

end Tagged

namespace Choice.Given

variable {choice : Choice C α} {v : Value} {x : α}

theorem isObject {P : (s : σ) → Value → C s → Prop} (h : choice.Given P v x) :
    ∃ members, v = .object members := by
  obtain ⟨_, _, _, _, _, hv, _⟩ := h
  exact ⟨_, hv⟩

/-- **A value with the tag first is decoded to what it stands for.** -/
theorem ofValue {value : (s : σ) → Value → Except Fault (C s)} (hchoice : choice.Distinct)
    (h : choice.Given (fun s v x => value s v = .ok x) v x) :
    (Tagged.ofValue choice v >>= Tagged.decode value) = .ok x := by
  obtain ⟨variant, hmem, fields, record, hrecord, rfl, rfl⟩ := h
  obtain ⟨htag, hnames⟩ := List.nodup_cons.1 (hchoice.members variant hmem)
  rw [← hrecord.names] at htag
  have hvariant : Tagged.ofValue choice (.object ((tagName, .string variant.name) :: fields)) =
      .ok ⟨variant, .members fields⟩ := by
    rw [Tagged.ofValue, Tagged.ofMembers, if_pos rfl]
    show (choice.named variant.name >>= fun tag => Tagged.ofMembers choice (some tag) [] fields) = _
    rw [hchoice.named hmem]
    exact Tagged.ofMembers_some choice variant [] htag
  rw [hvariant]
  exact Tagged.decode_of_given hnames hrecord

end Choice.Given

end AccessGraph.Json
