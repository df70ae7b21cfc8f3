import AccessGraph.Json.Reader
import AccessGraph.Proofs.Json.Number
import AccessGraph.Proofs.Json.String
/-!
# Values are read back

What stands between the parts of a text makes no difference as long as it is blank, so that all
texts of a value are treated alike, those on one line and those with a line for each item.

* `Json.within` : a result, unless brackets lie too deep inside each other.
* `Json.Value.Readable` : a value all numbers of which are read back.
* `Json.nextItem_comma`, `Json.nextKey_comma` : one step over what separates items and members.
* `Json.readValue_write` : **a value is read back from its text, exactly if its brackets lie no
  deeper inside each other than the reader allows.**
-/

namespace AccessGraph.Json

variable {α β : Type}

/-! ### Nesting -/

/-- A result that takes `nesting` brackets inside each other, where at most `depth` may be open. -/
def within (depth nesting : Nat) (x : α) : Except Fault α :=
  if nesting ≤ depth then .ok x else .error .tooDeep

theorem within_zero (depth : Nat) (x : α) : within depth 0 x = .ok x := if_pos (Nat.zero_le _)

theorem within_of_le {depth nesting : Nat} (h : nesting ≤ depth) (x : α) :
    within depth nesting x = .ok x := if_pos h

/-- One bracket more takes one more that may be open. -/
theorem within_succ (depth nesting : Nat) (x : α) :
    within (depth + 1) (1 + nesting) x = within depth nesting x := by
  unfold within
  by_cases h : nesting ≤ depth
  · rw [if_pos h, if_pos (by omega)]
  · rw [if_neg h, if_neg (by omega)]

/-- Two results one after the other. -/
theorem within_bind {depth n m : Nat} {x : α} {y : β} {f : α → Except Fault β}
    (h : f x = within depth m y) : (within depth n x >>= f) = within depth (max n m) y := by
  unfold within at h ⊢
  by_cases hn : n ≤ depth
  · rw [if_pos hn]
    show f x = _
    rw [h]
    by_cases hm : m ≤ depth
    · rw [if_pos hm, if_pos (Nat.max_le.2 ⟨hn, hm⟩)]
    · rw [if_neg hm, if_neg fun hmax => hm (Nat.max_le.1 hmax).2]
  · rw [if_neg hn, if_neg fun hmax => hn (Nat.max_le.1 hmax).1]
    rfl

theorem within_map (depth n : Nat) (x : α) (f : α → β) :
    (within depth n x >>= fun x => .ok (f x)) = within depth n (f x) := by
  have hbind := within_bind (f := fun x => .ok (f x)) (n := n) (within_zero depth (f x)).symm
  rwa [Nat.max_zero] at hbind

namespace Value

/-- A member lies no deeper than the deepest one. -/
theorem nesting_le_nestingMembers {members : List (String × Value)} {m : String × Value}
    (h : m ∈ members) : m.2.nesting ≤ nestingMembers members := by
  induction members with
  | nil => simp at h
  | cons first others ih =>
    rw [nestingMembers]
    rcases List.mem_cons.1 h with rfl | h
    · exact Nat.le_max_left _ _
    · exact Nat.le_trans (ih h) (Nat.le_max_right _ _)

/-- An item lies no deeper than the deepest one. -/
theorem nesting_le_nestingItems {vs : List Value} {v : Value} (h : v ∈ vs) :
    v.nesting ≤ nestingItems vs := by
  induction vs with
  | nil => simp at h
  | cons first others ih =>
    rw [nestingItems]
    rcases List.mem_cons.1 h with rfl | h
    · exact Nat.le_max_left _ _
    · exact Nat.le_trans (ih h) (Nat.le_max_right _ _)

end Value

/-! ### Blanks -/

/-- All of these characters are blank. -/
def Blanks (bs : List Char) : Prop := ∀ c ∈ bs, isBlank c = true

theorem blanks_nil : Blanks [] := nofun

theorem skipBlanks_append {bs : List Char} (h : Blanks bs) (cs : List Char) :
    skipBlanks (bs ++ cs) = skipBlanks cs := List.dropWhile_append_of_pos h

theorem skipBlanks_cons {c : Char} (h : isBlank c = false) (cs : List Char) :
    skipBlanks (c :: cs) = c :: cs := List.dropWhile_cons_of_neg (by simp [h])

/-- A blank belongs to no number. -/
theorem continuesNumber_of_isBlank {c : Char} (h : isBlank c = true) :
    continuesNumber c = false := by
  simp only [isBlank, Bool.or_eq_true, decide_eq_true_eq] at h
  rcases h with ((rfl | rfl) | rfl) | rfl <;> decide

/-- A number starts with no blank. -/
theorem isBlank_of_first {c : Char} (h : c = '-' ∨ c.isDigit = true) : isBlank c = false := by
  rcases h with rfl | hdigit
  · rfl
  · rw [Bool.eq_false_iff]
    intro hblank
    have hends := continuesNumber_of_isBlank hblank
    simp [continuesNumber, hdigit] at hends

theorem endsNumber_append {bs rest : List Char} (h : Blanks bs)
    (hrest : EndsNumber rest) : EndsNumber (bs ++ rest) := by
  cases bs with
  | nil => exact hrest
  | cons b bs => exact endsNumber_cons (continuesNumber_of_isBlank (h b List.mem_cons_self))

/-- All that stands between the parts of a text is blank. -/
structure Spacing.IsBlank (spacing : Spacing) : Prop where
  /-- What stands in front of an item and of a closing bracket. -/
  gap : ∀ level, Blanks (spacing.gap level)
  /-- What stands in front of the value of a member. -/
  afterColon : Blanks spacing.afterColon

theorem Spacing.isBlank_none : Spacing.none.IsBlank := ⟨fun _ => blanks_nil, blanks_nil⟩

theorem Spacing.isBlank_indented : Spacing.indented.IsBlank := by
  refine ⟨fun level c hc => ?_, fun c hc => ?_⟩
  · rcases List.mem_cons.1 hc with rfl | hc
    · rfl
    · rw [List.eq_of_mem_replicate hc]
      rfl
  · rw [List.mem_singleton.1 hc]
    rfl

/-! ### Single values -/

namespace Value

mutual

/-- Each number in the value is read back from its text. -/
def Readable : Value → Prop
  | null => True
  | bool _ => True
  | number n => n.ReadsBack
  | string _ => True
  | array items => ReadableItems items
  | object members => ReadableMembers members

/-- All values are readable. -/
def ReadableItems : List Value → Prop
  | [] => True
  | v :: vs => Readable v ∧ ReadableItems vs

/-- The values of all members are readable. -/
def ReadableMembers : List (String × Value) → Prop
  | [] => True
  | (_, v) :: members => Readable v ∧ ReadableMembers members

end

/-- The text of a value starts with a character that is neither blank nor the end of an array. -/
theorem exists_first (spacing : Spacing) (level : Nat) {v : Value} (h : v.Readable) :
    ∃ c cs, v.write spacing level = c :: cs ∧ isBlank c = false ∧ c ≠ ']' := by
  cases v with
  | null => exact ⟨'n', _, by rw [write]; rfl, rfl, by decide⟩
  | bool b =>
    cases b with
    | false => exact ⟨'f', _, by rw [write]; rfl, rfl, by decide⟩
    | true => exact ⟨'t', _, by rw [write]; rfl, rfl, by decide⟩
  | number n =>
    obtain ⟨c, cs, hwrite, hfirst⟩ := Number.ReadsBack.exists_first h
    refine ⟨c, cs, by rw [write, hwrite], isBlank_of_first hfirst, ?_⟩
    rintro rfl
    exact absurd hfirst (by decide)
  | string s => exact ⟨'"', _, by rw [write]; rfl, rfl, by decide⟩
  | array items =>
    cases items with
    | nil => exact ⟨'[', _, by rw [write], rfl, by decide⟩
    | cons v vs => exact ⟨'[', _, by rw [write], rfl, by decide⟩
  | object members =>
    cases members with
    | nil => exact ⟨'\x7b', _, by rw [write], rfl, by decide⟩
    | cons m ms => exact ⟨'\x7b', _, by rw [write], rfl, by decide⟩

end Value

/-- Blanks in front of a value are skipped. -/
theorem readValue_append {bs : List Char} (h : Blanks bs) (fuel depth : Nat)
    (cs : List Char) : readValue fuel depth (bs ++ cs) = readValue fuel depth cs := by
  unfold readValue
  rw [skipBlanks_append h]

/-- Values without brackets. -/
theorem readValue_scalar {c : Char} (hblank : isBlank c = false) (harray : c ≠ '[')
    (hobject : c ≠ '\x7b') (fuel depth : Nat) (cs : List Char) :
    readValue fuel depth (c :: cs) = readScalar (c :: cs) := by
  unfold readValue
  rw [skipBlanks_cons hblank]
  simp only [if_neg harray, if_neg hobject]

/-- A number is read as a value. -/
theorem readValue_number {n : Number} (h : n.ReadsBack) (fuel depth : Nat) {rest : List Char}
    (hrest : EndsNumber rest) : readValue fuel depth (n.write ++ rest) = .ok (.number n, rest) := by
  obtain ⟨c, cs, hwrite, hfirst⟩ := h.exists_first
  have hread := readNumber_write h hrest
  -- the first character decides what is read, and it is that of no other value
  have hne : ∀ d, ¬ (d = '-' ∨ d.isDigit = true) → c ≠ d := fun d hd heq => hd (heq ▸ hfirst)
  rw [hwrite, List.cons_append] at hread ⊢
  rw [readValue_scalar (isBlank_of_first hfirst) (hne '[' (by decide)) (hne '\x7b' (by decide)),
    readScalar, if_neg (hne 'n' (by decide)), if_neg (hne 't' (by decide)),
    if_neg (hne 'f' (by decide)), if_neg (hne '"' (by decide)), if_pos hfirst, hread]
  rfl

/-- A string is read as a value. -/
theorem readValue_string (s : String) (fuel depth : Nat) (rest : List Char) :
    readValue fuel depth (writeString s ++ rest) = .ok (.string s, rest) := by
  rw [writeString, List.cons_append, List.append_assoc,
    readValue_scalar rfl (by decide) (by decide), readScalar, if_neg (by decide),
    if_neg (by decide), if_neg (by decide), if_pos rfl]
  simp only [List.cons_append, List.nil_append, readString_escaped]
  rfl

/-! ### What separates items and members -/

/-- An item starts here, behind blanks. -/
def StartsItem (cs : List Char) : Prop := ∃ c rest, cs = c :: rest ∧ isBlank c = false ∧ c ≠ ']'

/-- The first item of an array. -/
theorem nextItem_first {bs cs : List Char} (hbs : Blanks bs) (hcs : StartsItem cs) :
    nextItem true (bs ++ cs) = .ok (true, cs) := by
  obtain ⟨c, rest, rfl, hblank, hclose⟩ := hcs
  rw [nextItem, skipBlanks_append hbs, skipBlanks_cons hblank]
  simp only [if_neg hclose, if_true]

/-- The next item of an array, behind a comma. -/
theorem nextItem_comma {bs cs : List Char} (hbs : Blanks bs) (hcs : StartsItem cs) :
    nextItem false (',' :: (bs ++ cs)) = .ok (true, cs) := by
  obtain ⟨c, rest, rfl, hblank, hclose⟩ := hcs
  rw [nextItem, skipBlanks_cons rfl]
  simp only [skipBlanks_append hbs, skipBlanks_cons hblank, if_neg hclose]
  rfl

/-- The end of an array. -/
theorem nextItem_close {bs : List Char} (hbs : Blanks bs) (first : Bool)
    (rest : List Char) : nextItem first (bs ++ ']' :: rest) = .ok (false, rest) := by
  rw [nextItem, skipBlanks_append hbs, skipBlanks_cons rfl]
  rfl

/-- A name is read back. -/
theorem readKey_writeString (name : String) (rest : List Char) :
    readKey (writeString name ++ rest) = .ok (some name, rest) := by
  rw [writeString, List.cons_append, List.append_assoc, readKey, if_pos rfl, List.singleton_append,
    readString_escaped]
  rfl

/-- The name of the first member of an object. -/
theorem nextKey_first {bs : List Char} (hbs : Blanks bs) (name : String)
    (rest : List Char) :
    nextKey true (bs ++ (writeString name ++ rest)) = .ok (some name, rest) := by
  have hkey := readKey_writeString name rest
  rw [writeString, List.cons_append] at hkey ⊢
  rw [nextKey, skipBlanks_append hbs, skipBlanks_cons rfl]
  exact hkey

/-- The name of the next member of an object, behind a comma. -/
theorem nextKey_comma {bs : List Char} (hbs : Blanks bs) (name : String)
    (rest : List Char) :
    nextKey false (',' :: (bs ++ (writeString name ++ rest))) = .ok (some name, rest) := by
  have hkey := readKey_writeString name rest
  rw [writeString, List.cons_append] at hkey ⊢
  rw [nextKey, skipBlanks_cons rfl]
  show readKey (skipBlanks (bs ++ _)) = _
  rw [skipBlanks_append hbs, skipBlanks_cons rfl, hkey]

/-- The end of an object. -/
theorem nextKey_close {bs : List Char} (hbs : Blanks bs) (first : Bool)
    (rest : List Char) : nextKey first (bs ++ '\x7d' :: rest) = .ok (none, rest) := by
  rw [nextKey, skipBlanks_append hbs, skipBlanks_cons rfl]
  rfl

theorem readColon_cons (rest : List Char) : readColon (':' :: rest) = .ok rest := by
  rw [readColon, skipBlanks_cons rfl]
  rfl

/-! ### Arrays and objects -/

/-- One round over an item. -/
theorem readItems_step {item : List Char → Except Fault (α × List Char)} {first : Bool}
    {rounds : Nat} {cs cs' : List Char} (h : nextItem first cs = .ok (true, cs'))
    (hrounds : 0 < rounds) (before : List α) :
    readItems item rounds first before cs =
      (item cs' >>= fun p => readItems item (rounds - 1) false (p.1 :: before) p.2) := by
  obtain ⟨rounds, rfl⟩ := Nat.exists_eq_add_one_of_ne_zero (Nat.ne_of_gt hrounds)
  rw [readItems, h]
  rfl

theorem readItems_close {item : List Char → Except Fault (α × List Char)} {first : Bool}
    {rounds : Nat} {cs rest : List Char} (h : nextItem first cs = .ok (false, rest))
    (hrounds : 0 < rounds) (before : List α) :
    readItems item rounds first before cs = .ok (before.reverse, rest) := by
  obtain ⟨rounds, rfl⟩ := Nat.exists_eq_add_one_of_ne_zero (Nat.ne_of_gt hrounds)
  rw [readItems, h]
  rfl

/-- One round over a member. -/
theorem readMembers_round {value : List Char → Except Fault (α × List Char)} {first : Bool}
    {rounds : Nat} {cs mid cs' : List Char} {name : String}
    (hkey : nextKey first cs = .ok (some name, mid)) (hcolon : readColon mid = .ok cs')
    (hrounds : 0 < rounds) (before : List (String × α)) :
    readMembers value rounds first before cs =
      (value cs' >>= fun p =>
        readMembers value (rounds - 1) false ((name, p.1) :: before) p.2) := by
  obtain ⟨rounds, rfl⟩ := Nat.exists_eq_add_one_of_ne_zero (Nat.ne_of_gt hrounds)
  rw [readMembers, hkey]
  simp only [bind, Except.bind, hcolon, Nat.add_sub_cancel]

/-- One round over a member whose name is followed by its colon. -/
theorem readMembers_step {value : List Char → Except Fault (α × List Char)} {first : Bool}
    {rounds : Nat} {cs cs' : List Char} {name : String}
    (h : nextKey first cs = .ok (some name, ':' :: cs')) (hrounds : 0 < rounds)
    (before : List (String × α)) :
    readMembers value rounds first before cs =
      (value cs' >>= fun p =>
        readMembers value (rounds - 1) false ((name, p.1) :: before) p.2) :=
  readMembers_round h (readColon_cons cs') hrounds before

theorem readMembers_close {value : List Char → Except Fault (α × List Char)} {first : Bool}
    {rounds : Nat} {cs rest : List Char} (h : nextKey first cs = .ok (none, rest))
    (hrounds : 0 < rounds) (before : List (String × α)) :
    readMembers value rounds first before cs = .ok (before.reverse, rest) := by
  obtain ⟨rounds, rfl⟩ := Nat.exists_eq_add_one_of_ne_zero (Nat.ne_of_gt hrounds)
  rw [readMembers, h]
  rfl

/-- An array takes one bracket more than its items. -/
theorem readValue_array {fuel n : Nat} {cs rest : List Char} {items : List Value}
    (h : ∀ depth, readItems (readValue fuel depth) fuel true [] cs = within depth n (items, rest))
    (depth : Nat) :
    readValue fuel depth ('[' :: cs) = within depth (1 + n) (.array items, rest) := by
  unfold readValue
  rw [skipBlanks_cons rfl]
  cases depth with
  | zero => exact (if_neg (by omega)).symm
  | succ depth =>
    show (readItems (readValue fuel depth) fuel true [] cs >>= fun p =>
      .ok (Value.array p.1, p.2)) = _
    rw [h depth, within_map, within_succ]

/-- An object takes one bracket more than its members. -/
theorem readValue_object {fuel n : Nat} {cs rest : List Char} {members : List (String × Value)}
    (h : ∀ depth, readMembers (readValue fuel depth) fuel true [] cs =
      within depth n (members, rest)) (depth : Nat) :
    readValue fuel depth ('\x7b' :: cs) = within depth (1 + n) (.object members, rest) := by
  unfold readValue
  rw [skipBlanks_cons rfl]
  cases depth with
  | zero => exact (if_neg (by omega)).symm
  | succ depth =>
    show (readMembers (readValue fuel depth) fuel true [] cs >>= fun p =>
      .ok (Value.object p.1, p.2)) = _
    rw [h depth, within_map, within_succ]

/-- There are no more items than characters. -/
theorem length_le_writeItems (spacing : Spacing) (level : Nat) (vs : List Value) :
    vs.length ≤ (Value.writeItems spacing level vs).length := by
  induction vs with
  | nil => exact Nat.zero_le _
  | cons v vs ih =>
    simp only [Value.writeItems, List.length_cons, List.length_append]
    omega

theorem length_le_writeMembers (spacing : Spacing) (level : Nat) (members : List (String × Value)) :
    members.length ≤ (Value.writeMembers spacing level members).length := by
  induction members with
  | nil => exact Nat.zero_le _
  | cons m members ih =>
    simp only [Value.writeMembers, List.length_cons, List.length_append]
    omega

section Write

variable {spacing : Spacing} {fuel : Nat}

/-- Behind an item stands the next one or the end of the array. -/
theorem endsNumber_writeItems (level : Nat) (vs : List Value) {rest : List Char}
    (hrest : EndsNumber rest) : EndsNumber (Value.writeItems spacing level vs ++ rest) := by
  cases vs with
  | nil => exact hrest
  | cons v vs => exact endsNumber_cons (by decide)

theorem endsNumber_writeMembers (level : Nat) (members : List (String × Value)) {rest : List Char}
    (hrest : EndsNumber rest) : EndsNumber (Value.writeMembers spacing level members ++ rest) := by
  cases members with
  | nil => exact hrest
  | cons m members => exact endsNumber_cons (by decide)

mutual

/-- **A value is read back from its text**, exactly if its brackets lie no deeper inside each other
than the reader allows. The fuel bounds the rounds over the items on every level alike, so that it
has to be no less than the characters of the whole text only. -/
theorem readValue_write (hs : spacing.IsBlank) :
    ∀ (v : Value) (level depth : Nat) (rest : List Char), v.Readable →
      (v.write spacing level).length ≤ fuel → EndsNumber rest →
      readValue fuel depth (v.write spacing level ++ rest) = within depth v.nesting (v, rest)
  | .null => by
    intro level depth rest _ _ _
    rw [Value.write, Value.nesting, within_zero]
    exact readValue_scalar rfl (by decide) (by decide) fuel depth _
  | .bool b => by
    intro level depth rest _ _ _
    rw [Value.write, Value.nesting, within_zero]
    cases b with
    | false => exact readValue_scalar rfl (by decide) (by decide) fuel depth _
    | true => exact readValue_scalar rfl (by decide) (by decide) fuel depth _
  | .number n => by
    intro level depth rest hn _ hrest
    rw [Value.write, Value.nesting, within_zero]
    exact readValue_number hn fuel depth hrest
  | .string s => by
    intro level depth rest _ _ _
    rw [Value.write, Value.nesting, within_zero]
    exact readValue_string s fuel depth rest
  | .array [] => by
    intro level depth rest _ hfuel _
    rw [Value.write] at hfuel ⊢
    have hrounds : 0 < fuel := Nat.lt_of_lt_of_le (by decide) hfuel
    refine readValue_array (fun depth => ?_) depth
    rw [Value.nestingItems, within_zero]
    exact readItems_close (nextItem_close blanks_nil true rest) hrounds []
  | .array (v :: vs) => by
    intro level depth rest hreadable hfuel _
    obtain ⟨hv, hvs⟩ := hreadable
    rw [Value.write] at hfuel ⊢
    simp only [List.cons_append, List.append_assoc, List.nil_append, List.length_cons,
      List.length_append] at hfuel ⊢
    have hlength := length_le_writeItems spacing (level + 1) vs
    have hclose : EndsNumber (spacing.gap level ++ ']' :: rest) :=
      endsNumber_append (hs.gap level) (endsNumber_cons (by decide))
    obtain ⟨c, cs, hwrite, hblank, hne⟩ := v.exists_first spacing (level + 1) hv
    -- the first item has no comma in front of it, the others do
    refine readValue_array (fun depth => ?_) depth
    rw [readItems_step (nextItem_first (hs.gap (level + 1)) ?_) (by omega),
      readValue_write hs v _ _ _ hv (by omega) (endsNumber_writeItems _ vs hclose)]
    · exact within_bind
        (readItems_writeItems hs vs _ _ _ [v] _ _ hvs (hs.gap level) (by omega) (by omega))
    · exact ⟨c, _, by rw [hwrite, List.cons_append], hblank, hne⟩
  | .object [] => by
    intro level depth rest _ hfuel _
    rw [Value.write] at hfuel ⊢
    have hrounds : 0 < fuel := Nat.lt_of_lt_of_le (by decide) hfuel
    refine readValue_object (fun depth => ?_) depth
    rw [Value.nestingMembers, within_zero]
    exact readMembers_close (nextKey_close blanks_nil true rest) hrounds []
  | .object ((name, v) :: members) => by
    intro level depth rest hreadable hfuel _
    obtain ⟨hv, hmembers⟩ := hreadable
    rw [Value.write] at hfuel ⊢
    simp only [List.cons_append, List.append_assoc, List.nil_append, List.length_cons,
      List.length_append] at hfuel ⊢
    have hlength := length_le_writeMembers spacing (level + 1) members
    have hclose : EndsNumber (spacing.gap level ++ '\x7d' :: rest) :=
      endsNumber_append (hs.gap level) (endsNumber_cons (by decide))
    refine readValue_object (fun depth => ?_) depth
    rw [readMembers_step (nextKey_first (hs.gap (level + 1)) name _) (by omega),
      readValue_append hs.afterColon,
      readValue_write hs v _ _ _ hv (by omega) (endsNumber_writeMembers _ members hclose)]
    exact within_bind
      (readMembers_writeMembers hs members _ _ _ [(name, v)] _ _ hmembers (hs.gap level)
        (by omega) (by omega))

theorem readItems_writeItems (hs : spacing.IsBlank) :
    ∀ (vs : List Value) (level depth rounds : Nat) (before : List Value) (bs rest : List Char),
      Value.ReadableItems vs → Blanks bs →
      (Value.writeItems spacing level vs).length ≤ fuel → vs.length < rounds →
      readItems (readValue fuel depth) rounds false before
        (Value.writeItems spacing level vs ++ (bs ++ ']' :: rest)) =
          within depth (Value.nestingItems vs) (before.reverse ++ vs, rest)
  | [] => by
    intro level depth rounds before bs rest _ hbs _ hrounds
    rw [Value.nestingItems, within_zero, List.append_nil]
    exact readItems_close (nextItem_close hbs false rest) hrounds before
  | v :: vs => by
    intro level depth rounds before bs rest hreadable hbs hfuel hrounds
    obtain ⟨hv, hvs⟩ := hreadable
    rw [Value.writeItems] at hfuel ⊢
    simp only [List.cons_append, List.append_assoc, List.length_cons,
      List.length_append] at hfuel hrounds ⊢
    have hclose : EndsNumber (bs ++ ']' :: rest) :=
      endsNumber_append hbs (endsNumber_cons (by decide))
    obtain ⟨c, cs, hwrite, hblank, hne⟩ := v.exists_first spacing level hv
    rw [readItems_step (nextItem_comma (hs.gap level) ?_) (by omega),
      readValue_write hs v _ _ _ hv (by omega) (endsNumber_writeItems _ vs hclose)]
    · have hrest := readItems_writeItems hs vs level depth (rounds - 1) (v :: before) bs rest hvs
        hbs (by omega) (by omega)
      rw [List.reverse_cons, List.append_assoc] at hrest
      exact within_bind hrest
    · exact ⟨c, _, by rw [hwrite, List.cons_append], hblank, hne⟩

theorem readMembers_writeMembers (hs : spacing.IsBlank) :
    ∀ (members : List (String × Value)) (level depth rounds : Nat) (before : List (String × Value))
      (bs rest : List Char), Value.ReadableMembers members → Blanks bs →
      (Value.writeMembers spacing level members).length ≤ fuel → members.length < rounds →
      readMembers (readValue fuel depth) rounds false before
        (Value.writeMembers spacing level members ++ (bs ++ '\x7d' :: rest)) =
          within depth (Value.nestingMembers members) (before.reverse ++ members, rest)
  | [] => by
    intro level depth rounds before bs rest _ hbs _ hrounds
    rw [Value.nestingMembers, within_zero, List.append_nil]
    exact readMembers_close (nextKey_close hbs false rest) hrounds before
  | (name, v) :: members => by
    intro level depth rounds before bs rest hreadable hbs hfuel hrounds
    obtain ⟨hv, hmembers⟩ := hreadable
    rw [Value.writeMembers] at hfuel ⊢
    simp only [List.cons_append, List.append_assoc, List.length_cons,
      List.length_append] at hfuel hrounds ⊢
    have hclose : EndsNumber (bs ++ '\x7d' :: rest) :=
      endsNumber_append hbs (endsNumber_cons (by decide))
    rw [readMembers_step (nextKey_comma (hs.gap level) name _) (by omega),
      readValue_append hs.afterColon,
      readValue_write hs v _ _ _ hv (by omega) (endsNumber_writeMembers _ members hclose)]
    have hrest := readMembers_writeMembers hs members level depth (rounds - 1) ((name, v) :: before)
      bs rest hmembers hbs (by omega) (by omega)
    rw [List.reverse_cons, List.append_assoc] at hrest
    exact within_bind hrest

end

end Write

/-! ### Whole texts -/

/-- A whole text is read by a reader that takes all of it. -/
theorem readText_ofList {read : Nat → List Char → Except Fault (α × List Char)} {cs : List Char}
    {depth nesting : Nat} {x : α}
    (h : ∀ fuel, cs.length ≤ fuel → read fuel cs = within depth nesting (x, [])) :
    readText read (String.ofList cs) = within depth nesting x := by
  rw [readText, String.toList_ofList]
  show (read (cs.length + 1) cs >>= fun p =>
    if (skipBlanks p.2).isEmpty then .ok p.1 else .error .trailingText) = _
  rw [h _ (Nat.le_succ _)]
  unfold within
  by_cases hnesting : nesting ≤ depth
  · rw [if_pos hnesting, if_pos hnesting]
    rfl
  · rw [if_neg hnesting, if_neg hnesting]
    rfl

end AccessGraph.Json
