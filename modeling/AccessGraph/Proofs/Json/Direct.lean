import AccessGraph.Json.Direct
import AccessGraph.Json.Enumeration
import AccessGraph.Proofs.Json.Record
import AccessGraph.Proofs.Json.Value
/-!
# Parts of a known form are read back

A reader that knows the form of what it reads gives back what has been written in that form, whatever
stands before and behind it. The law of a record or of an array follows from those of its parts.

* `Json.ReadAs` : a reader gives back what a value stands for from any text of the value.
* `Json.readAs_natural`, `Json.readAs_label`, `Json.Enumeration.readAs` : numbers, strings and names.
* `Json.readAs_array` : **an array is read back if its items are.**
* `Json.Slots.put_filled` : one member fills the next field.
* `Json.readAs_record` : **a record is read back if its fields are**, from members in their order.
* `Json.readText_of_readAs` : both texts of a value are read back.
-/

namespace AccessGraph.Json

variable {α β : Type} {spacing : Spacing} {fuel : Nat}

/-- The reader takes the text of a value off the front of some characters, together with the blanks
before it, and gives `x` for it. Only texts that are no longer than the fuel count. -/
structure ReadAs (spacing : Spacing) (fuel : Nat) (read : List Char → Except Fault (α × List Char))
    (v : Value) (x : α) : Prop where
  /-- The numbers in it are read back. -/
  readable : v.Readable
  /-- It is read whatever is around it. -/
  read_write : ∀ (level : Nat) (bs rest : List Char), (v.write spacing level).length ≤ fuel →
    Blanks bs → EndsNumber rest → read (bs ++ (v.write spacing level ++ rest)) = .ok (x, rest)

namespace ReadAs

variable {read : List Char → Except Fault (α × List Char)} {v : Value} {x : α}

/-- What is made of a value that is read back. -/
theorem map (h : ReadAs spacing fuel read v x) (f : α → β) :
    ReadAs spacing fuel (fun cs => read cs >>= fun p => .ok (f p.1, p.2)) v (f x) := by
  refine ⟨h.readable, fun level bs rest hfuel hbs hrest => ?_⟩
  show (read _ >>= _) = _
  rw [h.read_write level bs rest hfuel hbs hrest]
  rfl

/-- The text of a value starts an item. -/
theorem startsItem (h : ReadAs spacing fuel read v x) (level : Nat) (rest : List Char) :
    StartsItem (v.write spacing level ++ rest) := by
  obtain ⟨c, cs, hwrite, hblank, hne⟩ := v.exists_first spacing level h.readable
  exact ⟨c, cs ++ rest, by rw [hwrite, List.cons_append], hblank, hne⟩

end ReadAs

/-! ### Numbers, strings and names -/

theorem readAs_natural {n : Nat} (h : n < UInt64.size) :
    ReadAs spacing fuel readNatural (.number (.int n)) n := by
  have hback : (Number.int n).ReadsBack := readsBack_int (by omega) (by exact_mod_cast h)
  refine ⟨hback, fun level bs rest _ hbs hrest => ?_⟩
  obtain ⟨c, cs, hwrite, hfirst⟩ := hback.exists_first
  have hread := readNumber_write hback hrest
  rw [Value.write, readNatural, skipBlanks_append hbs]
  rw [hwrite, List.cons_append] at hread ⊢
  rw [skipBlanks_cons (isBlank_of_first hfirst)]
  simp only [if_pos hfirst, hread]
  rfl

theorem readAs_label (s : String) : ReadAs spacing fuel readLabel (.string s) s := by
  refine ⟨trivial, fun level bs rest _ hbs _ => ?_⟩
  rw [Value.write, readLabel, skipBlanks_append hbs, writeString, List.cons_append,
    skipBlanks_cons rfl, List.append_assoc, List.singleton_append]
  simp only [if_true, readString_escaped]

theorem Enumeration.readAs {names : List (String × α)} {name : String} {x : α}
    (h : named names name = .ok x) :
    ReadAs spacing fuel (Enumeration.read names) (.string name) x := by
  refine ⟨trivial, fun level bs rest _ hbs _ => ?_⟩
  rw [Value.write, Enumeration.read, skipBlanks_append hbs, writeString, List.cons_append,
    skipBlanks_cons rfl, List.append_assoc, List.singleton_append]
  simp only [if_true, readName, readString_escaped]
  show (named names name >>= fun x => .ok (x, rest)) = _
  rw [h]
  rfl

/-! ### Arrays -/

section Array

variable {item : List Char → Except Fault (α × List Char)}

/-- The numbers in items that are read back are so. -/
theorem readableItems_of_readAs {vs : List Value} {xs : List α}
    (h : List.Forall₂ (ReadAs spacing fuel item) vs xs) : Value.ReadableItems vs := by
  induction h with
  | nil => exact trivial
  | cons hv _ ih => exact ⟨hv.readable, ih⟩

/-- The rounds over the items after the first one. -/
theorem readItems_of_readAs (hs : spacing.IsBlank) {vs : List Value} {xs : List α}
    (h : List.Forall₂ (ReadAs spacing fuel item) vs xs) (level rounds : Nat) (before : List α)
    {bs : List Char} (rest : List Char) (hbs : Blanks bs)
    (hfuel : (Value.writeItems spacing level vs).length ≤ fuel) (hrounds : vs.length < rounds) :
    readItems item rounds false before
      (Value.writeItems spacing level vs ++ (bs ++ ']' :: rest)) =
        .ok (before.reverse ++ xs, rest) := by
  induction h generalizing rounds before with
  | nil =>
    rw [List.append_nil]
    exact readItems_close (nextItem_close hbs false rest) hrounds before
  | @cons v x vs xs hv _ ih =>
    rw [Value.writeItems] at hfuel ⊢
    simp only [List.cons_append, List.append_assoc, List.length_cons,
      List.length_append] at hfuel hrounds ⊢
    have hclose : EndsNumber (bs ++ ']' :: rest) :=
      endsNumber_append hbs (endsNumber_cons (by decide))
    have hitem := hv.read_write level [] _ (by omega) blanks_nil
      (@endsNumber_writeItems spacing level vs _ hclose)
    rw [List.nil_append] at hitem
    rw [readItems_step (nextItem_comma (hs.gap level) (hv.startsItem level _)) (by omega), hitem]
    show readItems item (rounds - 1) false (x :: before) _ = _
    rw [ih (rounds - 1) (x :: before) (by omega) (by omega), List.reverse_cons, List.append_assoc]
    rfl

/-- **An array is read back if its items are.** -/
theorem readAs_array (hs : spacing.IsBlank) {vs : List Value} {xs : List α}
    (h : List.Forall₂ (ReadAs spacing fuel item) vs xs) :
    ReadAs spacing fuel (readArray item fuel) (.array vs) xs := by
  refine ⟨readableItems_of_readAs h, fun level bs rest hfuel hbs _ => ?_⟩
  cases h with
  | nil =>
    rw [Value.write] at hfuel ⊢
    rw [readArray, skipBlanks_append hbs]
    exact readItems_close (nextItem_close blanks_nil true rest)
      (Nat.lt_of_lt_of_le (by decide) hfuel) []
  | @cons v x vs xs hv hvs =>
    rw [Value.write] at hfuel ⊢
    simp only [List.cons_append, List.append_assoc, List.nil_append, List.length_cons,
      List.length_append] at hfuel ⊢
    have hlength := length_le_writeItems spacing (level + 1) vs
    have hclose : EndsNumber (spacing.gap level ++ ']' :: rest) :=
      endsNumber_append (hs.gap level) (endsNumber_cons (by decide))
    have hitem := hv.read_write (level + 1) [] _ (by omega) blanks_nil
      (@endsNumber_writeItems spacing (level + 1) vs _ hclose)
    rw [List.nil_append] at hitem
    -- the first item has no comma in front of it, the others do
    rw [readArray, skipBlanks_append hbs, skipBlanks_cons rfl]
    show readItems item fuel true [] _ = _
    rw [readItems_step (nextItem_first (hs.gap (level + 1)) (hv.startsItem _ _)) (by omega), hitem]
    exact readItems_of_readAs hs hvs (level + 1) (fuel - 1) [x] rest (hs.gap level) (by omega)
      (by omega)

end Array

/-! ### Records -/

variable {σ : Type} {C : σ → Type}

namespace Slots

/-- The first `count` fields have the values of a record, and the others have none. -/
def filled : (fs : List (Field C)) → Record C fs → (count : Nat) → Slots C fs
  | fs, _, 0 => empty fs
  | [], _, _ + 1 => ()
  | _ :: fs, (x, record), count + 1 => cons (some x) (filled fs record count)

theorem filled_length (fs : List (Field C)) (record : Record C fs) :
    filled fs record fs.length = ofRecord fs record := by
  induction fs with
  | nil => rfl
  | cons f fs ih =>
    show cons (some record.1) (filled fs record.2 fs.length) = _
    rw [ih record.2]
    rfl

/-- **A member fills the next field** with what its value is read as. -/
theorem put_filled {P : (s : σ) → Value → C s → Prop}
    {value : (s : σ) → StateT (List Char) (Except Fault) (C s)} {fs : List (Field C)}
    (hnames : (fs.map (·.name)).Nodup) {members : List (String × Value)} {record : Record C fs}
    (h : Record.Given P fs members record) {count : Nat} {m : String × Value}
    (hm : members[count]? = some m) {cs rest : List Char}
    (hvalue : ∀ (s : σ) (x : C s), P s m.2 x → value s cs = .ok (x, rest)) :
    put m.1 value fs (filled fs record count) cs =
      .ok (filled fs record (count + 1), rest) := by
  induction fs generalizing members count with
  | nil =>
    cases members with
    | nil => simp at hm
    | cons first others => exact h.elim
  | cons f fs ih =>
    cases members with
    | nil => exact h.elim
    | cons first others =>
      obtain ⟨x, record⟩ := record
      obtain ⟨hname, hfirst, hothers⟩ := h
      obtain ⟨hfresh, hdistinct⟩ := List.nodup_cons.1 hnames
      cases count with
      | zero =>
        obtain rfl : first = m := Option.some.inj hm
        show put _ value (f :: fs) (none, empty fs) cs = _
        rw [put, if_pos hname.symm]
        show (value f.shape cs >>= fun p => .ok ((some p.1, empty fs), p.2)) = _
        rw [hvalue f.shape x hfirst]
        cases fs <;> rfl
      | succ count =>
        rw [List.getElem?_cons_succ] at hm
        -- the fields before it have other names
        have hne : f.name ≠ m.1 := by
          intro heq
          have hmem : m.1 ∈ others.map (·.1) := List.mem_map_of_mem (List.mem_of_getElem? hm)
          rw [← heq, hothers.names] at hmem
          exact hfresh hmem
        show put _ value (f :: fs) (some x, filled fs record count) cs = _
        rw [put, if_neg hne]
        show (put m.1 value fs (filled fs record count) cs >>= fun p =>
          .ok ((some x, p.1), p.2)) = _
        rw [ih hdistinct hothers hm]
        rfl

end Slots

section Record

variable {part : (s : σ) → List Char → Except Fault (C s × List Char)} {fs : List (Field C)}
  {members : List (String × Value)} {record : Record C fs}

/-- The numbers in members that are read back are so. -/
theorem readableMembers_of_given {fs : List (Field C)} {members : List (String × Value)}
    {record : Record C fs}
    (h : Record.Given (fun s v x => ReadAs spacing fuel (part s) v x) fs members record) :
    Value.ReadableMembers members := by
  induction fs generalizing members with
  | nil =>
    cases members with
    | nil => exact trivial
    | cons m members => exact h.elim
  | cons f fs ih =>
    cases members with
    | nil => exact h.elim
    | cons m members => exact ⟨h.2.1.readable, ih h.2.2⟩

/-- One round over a member whose value is read back. -/
theorem readFields_step (hs : spacing.IsBlank) (hnames : (fs.map (·.name)).Nodup)
    (h : Record.Given (fun s v x => ReadAs spacing fuel (part s) v x) fs members record)
    {count rounds level : Nat} {name : String} {v : Value} (hm : members[count]? = some (name, v))
    {first : Bool} {cs rest : List Char}
    (hkey : nextKey first cs =
      .ok (some name, ':' :: (spacing.afterColon ++ (v.write spacing level ++ rest))))
    (hfuel : (v.write spacing level).length ≤ fuel) (hrest : EndsNumber rest)
    (hrounds : 0 < rounds) :
    readFields part fs rounds first (Slots.filled fs record count) cs =
      readFields part fs (rounds - 1) false (Slots.filled fs record (count + 1)) rest := by
  obtain ⟨rounds, rfl⟩ := Nat.exists_eq_add_one_of_ne_zero (Nat.ne_of_gt hrounds)
  have hany : fs.any (·.name = name) = true := by
    have hmem : name ∈ fs.map (·.name) := by
      rw [← h.names]
      exact List.mem_map_of_mem (List.mem_of_getElem? hm)
    obtain ⟨f, hf, hname⟩ := List.mem_map.1 hmem
    exact List.any_eq_true.2 ⟨f, hf, decide_eq_true hname⟩
  have hput : Slots.put name (memberPart part) fs (Slots.filled fs record count)
      (':' :: (spacing.afterColon ++ (v.write spacing level ++ rest))) =
        .ok (Slots.filled fs record (count + 1), rest) := by
    refine Slots.put_filled hnames h hm fun s x hx => ?_
    show (readColon _ >>= fun cs => part s cs) = _
    rw [readColon_cons]
    exact hx.read_write level spacing.afterColon rest hfuel hs.afterColon hrest
  rw [readFields, hkey]
  show (if fs.any (·.name = name) then
    Slots.put name (memberPart part) fs (Slots.filled fs record count) _ >>= _ else _) = _
  rw [if_pos hany, hput]
  rfl

/-- The rounds over the members after the first `done`. -/
theorem readFields_of_given (hs : spacing.IsBlank) (hnames : (fs.map (·.name)).Nodup)
    (h : Record.Given (fun s v x => ReadAs spacing fuel (part s) v x) fs members record)
    (done todo : List (String × Value)) (hmembers : members = done ++ todo) (level rounds : Nat)
    {bs : List Char} (rest : List Char) (hbs : Blanks bs)
    (hfuel : (Value.writeMembers spacing level todo).length ≤ fuel) (hrounds : todo.length < rounds) :
    readFields part fs rounds false (Slots.filled fs record done.length)
      (Value.writeMembers spacing level todo ++ (bs ++ '\x7d' :: rest)) =
        .ok (Slots.ofRecord fs record, rest) := by
  induction todo generalizing done rounds with
  | nil =>
    obtain ⟨rounds, rfl⟩ := Nat.exists_eq_add_one_of_ne_zero (Nat.ne_of_gt hrounds)
    have hall : done.length = fs.length := by
      have hlength := congrArg List.length h.names
      rwa [List.length_map, List.length_map, hmembers, List.append_nil] at hlength
    rw [Value.writeMembers, List.nil_append, readFields, nextKey_close hbs, hall,
      Slots.filled_length]
    rfl
  | cons m todo ih =>
    obtain ⟨name, v⟩ := m
    rw [Value.writeMembers] at hfuel ⊢
    simp only [List.cons_append, List.append_assoc, List.length_cons,
      List.length_append] at hfuel hrounds ⊢
    have hm : members[done.length]? = some (name, v) := by
      rw [hmembers, List.getElem?_append_right (Nat.le_refl _), Nat.sub_self, List.getElem?_cons_zero]
    have hclose : EndsNumber (bs ++ '\x7d' :: rest) :=
      endsNumber_append hbs (endsNumber_cons (by decide))
    rw [readFields_step hs hnames h hm (nextKey_comma (hs.gap level) name _) (by omega)
      (endsNumber_writeMembers level todo hclose) (by omega)]
    have hrest := ih (done ++ [(name, v)]) (by rw [hmembers, List.append_assoc]; rfl) (rounds - 1)
      (by omega) (by omega)
    rwa [List.length_append] at hrest

/-- **A record is read back if its fields are**, from members in their order. -/
theorem readAs_record (hs : spacing.IsBlank) (title : String) (hnames : (fs.map (·.name)).Nodup)
    (h : Record.Given (fun s v x => ReadAs spacing fuel (part s) v x) fs members record) :
    ReadAs spacing fuel (readRecord part title fs fuel) (.object members) record := by
  refine ⟨readableMembers_of_given h, fun level bs rest hfuel hbs _ => ?_⟩
  suffices hfields : ∃ cs, (Value.object members).write spacing level ++ rest = '\x7b' :: cs ∧
      readFields part fs fuel true (Slots.filled fs record 0) cs =
        .ok (Slots.ofRecord fs record, rest) by
    obtain ⟨cs, hwrite, hfields⟩ := hfields
    have hempty : Slots.filled fs record 0 = Slots.empty fs := by cases fs <;> rfl
    rw [hempty] at hfields
    rw [readRecord, skipBlanks_append hbs, hwrite, skipBlanks_cons rfl]
    show (readFields part fs fuel true (Slots.empty fs) cs >>= fun p =>
      Slots.close fs p.1 >>= fun record => .ok (record, p.2)) = _
    rw [hfields]
    show (Slots.close fs (Slots.ofRecord fs record) >>= fun record => .ok (record, rest)) = _
    rw [Slots.close_ofRecord]
    rfl
  cases members with
  | nil =>
    rw [Value.write] at hfuel ⊢
    obtain ⟨rounds, rfl⟩ := Nat.exists_eq_add_one_of_ne_zero
      (Nat.ne_of_gt (Nat.lt_of_lt_of_le (by decide) hfuel))
    refine ⟨'\x7d' :: rest, rfl, ?_⟩
    have hnone : 0 = fs.length := by simpa using congrArg List.length h.names
    have hend := nextKey_close blanks_nil true rest
    rw [List.nil_append] at hend
    rw [hnone, Slots.filled_length, readFields, hend]
    rfl
  | cons m todo =>
    obtain ⟨name, v⟩ := m
    rw [Value.write] at hfuel ⊢
    simp only [List.cons_append, List.append_assoc, List.nil_append, List.length_cons,
      List.length_append] at hfuel ⊢
    have hlength := length_le_writeMembers spacing (level + 1) todo
    have hclose : EndsNumber (spacing.gap level ++ '\x7d' :: rest) :=
      endsNumber_append (hs.gap level) (endsNumber_cons (by decide))
    refine ⟨_, rfl, ?_⟩
    rw [readFields_step hs hnames h rfl (nextKey_first (hs.gap (level + 1)) name _) (by omega)
      (endsNumber_writeMembers (level + 1) todo hclose) (by omega)]
    exact readFields_of_given hs hnames h [(name, v)] todo rfl (level + 1) (fuel - 1) rest
      (hs.gap level) (by omega) (by omega)

end Record

/-! ### Whole texts -/

/-- **Both texts of a value are read back**, the one on one line and the one with a line for each
item. -/
theorem readText_of_readAs {read : Nat → List Char → Except Fault (α × List Char)} {v : Value}
    {x : α} (h : ∀ (spacing : Spacing) (fuel : Nat), spacing.IsBlank →
      ReadAs spacing fuel (read fuel) v x) :
    readText read v.compact = .ok x ∧ readText read v.pretty = .ok x := by
  have hread : ∀ spacing : Spacing, spacing.IsBlank →
      readText read (String.ofList (v.write spacing 0)) = .ok x := by
    intro spacing hs
    rw [← within_zero 0 x]
    refine readText_ofList fun fuel hfuel => ?_
    have hvalue := (h spacing fuel hs).read_write 0 [] [] hfuel blanks_nil endsNumber_nil
    rw [within_zero]
    rwa [List.append_nil, List.nil_append] at hvalue
  exact ⟨hread .none Spacing.isBlank_none, hread .indented Spacing.isBlank_indented⟩

end AccessGraph.Json
