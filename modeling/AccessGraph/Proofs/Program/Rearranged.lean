import AccessGraph.Proofs.Json.Order
import AccessGraph.Proofs.Json.Tag
import AccessGraph.Program.Decode
/-!
# Programs whose members are rearranged

The members of an object may be put into any order, at any depth, and to an object that stands for a
variable, an expression or a statement others may be added that mean nothing there. What a name means
depends on the variant: a member that is a field of one may be added to another.

* `Shape.fields`, `Shape.reserved` : the fields of an object of some shape, and the names that mean
  something in it, given its tag.
* `Rearranged` : a value is another one with its members rearranged.
* `Rearranged.nesting_le` : its brackets lie no deeper inside each other.
* `keeps_decode` : it is decoded to the same.
* `Stmt.ofJson_of_rearranged` : **a program is read in the same way with its members rearranged.**
-/

namespace AccessGraph

open Json

/-! ### What members mean -/

/-- The fields of the variant that a tag names. -/
def Json.Choice.fieldsOf {α : Type} (choice : Choice Shape.Carrier α) (tag? : Option Value) :
    List (Field Shape.Carrier) :=
  match tag?.map choice.ofTag with
  | some (.ok variant) => variant.fields
  | _ => []

namespace Shape

/-- The fields of an object of some shape, given its tag. -/
def fields (tag? : Option Value) : Shape → List (Field Carrier)
  | .var => Var.fields
  | .expr => Expr.choice.fieldsOf tag?
  | .stmt => Stmt.choice.fieldsOf tag?
  | .option s => s.fields tag?
  | _ => []

/-- The names that mean something in an object of some shape, given its tag, if others may stand in
it. -/
def reserved (tag? : Option Value) : Shape → Option (List String)
  | .var => some (Var.fields.map (·.name))
  | .expr => some (tagName :: (Expr.choice.fieldsOf tag?).map (·.name))
  | .stmt => some (tagName :: (Stmt.choice.fieldsOf tag?).map (·.name))
  | .option s => s.reserved tag?
  | _ => none

/-- The shape of an item of an array of some shape, given its first item. -/
def item (first? : Option Value) : Shape → Nat → Option Shape
  | .list s, _ => some s
  | .var, i => Var.fields[i]?.map (·.shape)
  | .expr, i + 1 => (Expr.choice.fieldsOf first?)[i]?.map (·.shape)
  | .stmt, i + 1 => (Stmt.choice.fieldsOf first?)[i]?.map (·.shape)
  | .option s, i => s.item first? i
  | _, _ => none

end Shape

/-- The tag among some members. -/
def tag? (members : List (String × Value)) : Option Value :=
  (members.find? (·.1 = tagName)).map (·.2)

/-- The shape of a member of an object that has a shape itself. -/
def memberShape (shape? : Option Shape) (members : List (String × Value)) (name : String) :
    Option Shape :=
  shape?.bind fun s => ((s.fields (tag? members)).find? (·.name = name)).map (·.shape)

/-- The shape of an item of an array that has a shape itself. -/
def itemShape (shape? : Option Shape) (items : List Value) (i : Nat) : Option Shape :=
  shape?.bind fun s => s.item items.head? i

/-- A member may be added to an object if it means nothing there and opens no bracket. -/
def MayAdd (shape? : Option Shape) (members : List (String × Value)) (m : String × Value) : Prop :=
  m.2.nesting = 0 ∧ ∃ names, (shape?.bind (·.reserved (tag? members))) = some names ∧ m.1 ∉ names

mutual

/-- A value that stands for a part of some shape, or for nothing, is another one with its members
rearranged. -/
inductive Rearranged : (shape? : Option Shape) → Value → Value → Prop where
  | same {shape? : Option Shape} {v : Value} : Rearranged shape? v v
  | array {shape? : Option Shape} {items items' : List Value}
      (h : RearrangedItems (itemShape shape? items) items items') :
      Rearranged shape? (.array items) (.array items')
  | object {shape? : Option Shape} {members kept added members' : List (String × Value)}
      (hkept : RearrangedMembers (memberShape shape? members) members kept)
      (hadded : ∀ m ∈ added, MayAdd shape? members m) (hperm : (kept ++ added).Perm members') :
      Rearranged shape? (.object members) (.object members')

/-- The items are others with their members rearranged. -/
inductive RearrangedItems : (shapes : Nat → Option Shape) → List Value → List Value → Prop where
  | nil {shapes : Nat → Option Shape} : RearrangedItems shapes [] []
  | cons {shapes : Nat → Option Shape} {v v' : Value} {items items' : List Value}
      (h : Rearranged (shapes 0) v v') (hrest : RearrangedItems (shapes <| · + 1) items items') :
      RearrangedItems shapes (v :: items) (v' :: items')

/-- The members are others with the members of their values rearranged. -/
inductive RearrangedMembers : (shapes : String → Option Shape) → List (String × Value) →
    List (String × Value) → Prop where
  | nil {shapes : String → Option Shape} : RearrangedMembers shapes [] []
  | cons {shapes : String → Option Shape} {name : String} {v v' : Value}
      {members members' : List (String × Value)} (h : Rearranged (shapes name) v v')
      (hrest : RearrangedMembers shapes members members') :
      RearrangedMembers shapes ((name, v) :: members) ((name, v') :: members')

end

/-- The items are rearranged one by one. -/
theorem RearrangedItems.getElem? {shapes : Nat → Option Shape} {items items' : List Value}
    (h : RearrangedItems shapes items items') : items.length = items'.length ∧
      ∀ (i : Nat) v v', items[i]? = some v → items'[i]? = some v' → Rearranged (shapes i) v v' := by
  match h with
  | .nil => exact ⟨rfl, by rintro i v v' ⟨⟩⟩
  | .cons h hrest =>
    obtain ⟨hlength, hothers⟩ := hrest.getElem?
    refine ⟨congrArg Nat.succ hlength, fun i v v' hv hv' => ?_⟩
    cases i with
    | zero =>
      cases hv
      cases hv'
      exact h
    | succ i => exact hothers i v v' hv hv'

/-- Items of one shape are rearranged one by one. -/
theorem RearrangedItems.forall₂ {shapes : Nat → Option Shape} {shape? : Option Shape}
    {items items' : List Value} (h : RearrangedItems shapes items items')
    (hshapes : ∀ i, shapes i = shape?) : List.Forall₂ (Rearranged shape?) items items' := by
  match h with
  | .nil => exact .nil
  | .cons h hrest => exact .cons (hshapes 0 ▸ h) (hrest.forall₂ fun i => hshapes (i + 1))

/-- The members are rearranged one by one. -/
theorem RearrangedMembers.forall₂ {shapes : String → Option Shape}
    {members members' : List (String × Value)} (h : RearrangedMembers shapes members members') :
    List.Forall₂ (fun m m' => m.1 = m'.1 ∧ Rearranged (shapes m.1) m.2 m'.2) members members' := by
  match h with
  | .nil => exact .nil
  | .cons h hrest => exact .cons ⟨rfl, h⟩ hrest.forall₂

/-- Each member is one that has been there, with its value rearranged. -/
theorem RearrangedMembers.exists_of_mem {shapes : String → Option Shape}
    {members members' : List (String × Value)} (h : RearrangedMembers shapes members members')
    {m' : String × Value} (hm' : m' ∈ members') :
    ∃ m ∈ members, m.1 = m'.1 ∧ Rearranged (shapes m.1) m.2 m'.2 := by
  match h with
  | @RearrangedMembers.cons _ name v _ _ _ h hrest =>
    rcases List.mem_cons.1 hm' with rfl | hm'
    · exact ⟨(name, v), List.mem_cons_self, rfl, h⟩
    · obtain ⟨m, hm, hvalue⟩ := hrest.exists_of_mem hm'
      exact ⟨m, List.mem_cons_of_mem _ hm, hvalue⟩

/-- A value without brackets has no members to rearrange. -/
theorem Rearranged.eq_of_nesting {shape? : Option Shape} {v v' : Value}
    (h : Rearranged shape? v v') (hv : v.nesting = 0) : v' = v := by
  cases h with
  | same => rfl
  | array | object =>
    rw [Value.nesting] at hv
    omega

/-! ### Nesting -/

/-- Members nest as deep as the deepest one of them, in any order. -/
theorem nestingMembers_le_iff {members : List (String × Value)} {n : Nat} :
    Value.nestingMembers members ≤ n ↔ ∀ m ∈ members, m.2.nesting ≤ n := by
  induction members with
  | nil => simp [Value.nestingMembers]
  | cons m members ih =>
    rw [Value.nestingMembers, Nat.max_le, ih, List.forall_mem_cons]

mutual

/-- **The brackets of a rearranged value lie no deeper inside each other.** -/
theorem Rearranged.nesting_le {shape? : Option Shape} {v v' : Value} (h : Rearranged shape? v v') :
    v'.nesting ≤ v.nesting := by
  match h with
  | .same => exact Nat.le_refl _
  | .array h =>
    rw [Value.nesting, Value.nesting]
    exact Nat.add_le_add_left h.nesting_le 1
  | .object hkept hadded hperm =>
    rw [Value.nesting, Value.nesting]
    refine Nat.add_le_add_left (nestingMembers_le_iff.2 fun m hm => ?_) 1
    rcases List.mem_append.1 (hperm.mem_iff.2 hm) with hm | hm
    · exact Nat.le_trans (nestingMembers_le_iff.1 (Nat.le_refl _) m hm) hkept.nesting_le
    · rw [(hadded m hm).1]
      exact Nat.zero_le _

theorem RearrangedItems.nesting_le {shapes : Nat → Option Shape} {items items' : List Value}
    (h : RearrangedItems shapes items items') :
    Value.nestingItems items' ≤ Value.nestingItems items := by
  match h with
  | .nil => exact Nat.le_refl _
  | .cons h hrest =>
    rw [Value.nestingItems, Value.nestingItems]
    have hfirst := h.nesting_le
    have hothers := hrest.nesting_le
    omega

theorem RearrangedMembers.nesting_le {shapes : String → Option Shape}
    {members members' : List (String × Value)} (h : RearrangedMembers shapes members members') :
    Value.nestingMembers members' ≤ Value.nestingMembers members := by
  match h with
  | .nil => exact Nat.le_refl _
  | .cons h hrest =>
    rw [Value.nestingMembers, Value.nestingMembers]
    have hfirst := h.nesting_le
    have hothers := hrest.nesting_le
    omega

end

/-! ### Decoding -/

/-- What is decoded of a value is decoded of the value with its members rearranged. -/
def Keeps (part : (s : Shape) → Value → Except Fault s.Carrier) : Prop :=
  ∀ s v v' x, Rearranged (some s) v v' → part s v = .ok x → part s v' = .ok x

/-- What is decoded to a number or a string has no brackets. -/
theorem nesting_of_decodeInteger {low high : Int} {expected : String} {v : Value} {n : Int}
    (h : decodeInteger low high expected v = .ok n) : v.nesting = 0 := by
  cases v with
  | array | object => cases h
  | _ => rw [Value.nesting]

theorem nesting_of_decodeFloat {v : Value} {x : Float} (h : decodeFloat v = .ok x) :
    v.nesting = 0 := by
  cases v with
  | array | object => cases h
  | _ => rw [Value.nesting]

theorem nesting_of_decodeString {v : Value} {s : String} (h : decodeString v = .ok s) :
    v.nesting = 0 := by
  cases v with
  | array | object => cases h
  | _ => rw [Value.nesting]

/-- A tag has no brackets. -/
theorem Json.Choice.nesting_of_ofTag {σ α : Type} {C : σ → Type} {choice : Choice C α}
    {tag : Value} {variant : Variant C α} (h : choice.ofTag tag = .ok variant) : tag.nesting = 0 := by
  cases tag with
  | array | object => cases h
  | _ => rw [Value.nesting]

/-- An object that names something out of a list has one member, with nothing in it. -/
theorem Json.Enumeration.of_ofValue {α : Type} {names : List (String × α)}
    {members : List (String × Value)} {x : α} (h : ofValue names (.object members) = .ok x) :
    ∃ name v, members = [(name, v)] ∧ (v = .null ∨ v = .object []) := by
  unfold ofValue at h
  split at h
  · rename_i heq
    cases heq
  · rename_i name v heq
    obtain ⟨_, -, hname⟩ := bind_eq_ok_iff.1 h
    obtain ⟨_, hunit, -⟩ := bind_eq_ok_iff.1 hname
    refine ⟨name, v, Value.object.inj heq, ?_⟩
    unfold checkUnit at hunit
    split at hunit
    · exact .inl rfl
    · exact .inr rfl
    · cases hunit
  · cases h
  · cases h

/-- An object in which nothing may stand gets no members. -/
theorem Rearranged.object_nil {shape? : Option Shape} {v' : Value}
    (h : Rearranged shape? (.object []) v') (hshape : ∀ m, ¬MayAdd shape? [] m) : v' = .object [] := by
  cases h with
  | same => rfl
  | object hkept hadded hperm =>
    cases hkept
    rename_i added members'
    have hnil : added = [] := List.eq_nil_iff_forall_not_mem.2 fun m hm => hshape m (hadded m hm)
    rw [hnil] at hperm
    rw [List.nil_perm.1 hperm]

/-- A name out of a list has no members that could be rearranged. -/
theorem keeps_enumeration {α : Type} {names : List (String × α)} {s : Shape} {v v' : Value} {x : α}
    (hfields : ∀ tag?, s.fields tag? = []) (hreserved : ∀ tag?, s.reserved tag? = none)
    (hv : Rearranged (some s) v v') (h : Enumeration.ofValue names v = .ok x) :
    Enumeration.ofValue names v' = .ok x := by
  suffices heq : v' = v by rwa [heq]
  cases hv with
  | same => rfl
  | array => cases h
  | object hkept hadded hperm =>
    rename_i members kept added members'
    have hnil : added = [] := by
      refine List.eq_nil_iff_forall_not_mem.2 fun m hm => ?_
      obtain ⟨-, names, hnames, -⟩ := hadded m hm
      rw [Option.bind_some, hreserved] at hnames
      cases hnames
    obtain ⟨name, u, rfl, hu⟩ := Enumeration.of_ofValue h
    cases hkept with
    | cons hu' hrest =>
      cases hrest
      rename_i u'
      have hnone : memberShape (some s) [(name, u)] name = none := by
        rw [memberShape, Option.bind_some, hfields]
        rfl
      rw [hnone] at hu'
      have hsame : u' = u := by
        rcases hu with rfl | rfl
        · exact hu'.eq_of_nesting (by rw [Value.nesting])
        · refine hu'.object_nil fun m hm => ?_
          obtain ⟨-, names, hnames, -⟩ := hm
          cases hnames
      rw [hnil, hsame] at hperm
      rw [List.singleton_perm.1 hperm]

/-! ### Variables, expressions and statements -/

section Parts

variable {part : (s : Shape) → Value → Except Fault s.Carrier} {α : Type}

/-- Members that are rearranged are decoded to the same in the shapes of the fields that they name. -/
theorem Keeps.replaces (h : Keeps part) {fs : List (Field Shape.Carrier)}
    {shapes : String → Option Shape}
    (hshapes : ∀ name, shapes name = (fs.find? (·.name = name)).map (·.shape))
    {m m' : String × Value} (hm : m.1 = m'.1 ∧ Rearranged (shapes m.1) m.2 m'.2) :
    Slots.Replaces part fs m m' := by
  refine ⟨hm.1, fun f hf x hx => ?_⟩
  have hv := hm.2
  rw [hshapes, hf] at hv
  exact h f.shape m.2 m'.2 x hv hx

/-- A variable is decoded as before. -/
theorem Keeps.decodeVar (h : Keeps part) {v v' : Value} {x : Var}
    (hv : Rearranged (some .var) v v') (hx : decodeVar part v = .ok x) :
    decodeVar part v' = .ok x := by
  cases hv with
  | same => exact hx
  | array hitems =>
    obtain ⟨hlength, hvalues⟩ := hitems.getElem?
    refine Tagged.decode_items_of_replaced hlength (fun i f v v' hf hv hv' y hy => ?_) hx
    have hvalue := hvalues i v v' hv hv'
    rw [itemShape, Option.bind_some, Shape.item, hf] at hvalue
    exact h f.shape v v' y hvalue hy
  | object hkept hadded hperm =>
    refine Tagged.decode_members_of_replaced (hkept.forall₂.imp fun m m' => h.replaces fun name => ?_)
      (fun m hm => ?_) hperm hx
    · rfl
    · obtain ⟨-, names, hnames, hfresh⟩ := hadded m hm
      cases hnames
      exact hfresh

/-- The tag of a value of several variants is found among its members. -/
theorem Json.Choice.fieldsOf_tag? {choice : Choice Shape.Carrier α}
    {members : List (String × Value)} {t : Tagged Shape.Carrier α}
    (h : Tagged.ofMembers choice none [] members = .ok t) :
    choice.fieldsOf (tag? members) = t.variant.fields := by
  obtain ⟨tag, variant, hfilter, hvariant, rfl⟩ := Tagged.ofMembers_eq_ok_iff.1 h
  have htag : tag? members = some tag := by
    rw [tag?, ← List.head?_filter, hfilter]
    rfl
  rw [fieldsOf, htag, Option.map_some, hvariant]

/-- A value of several variants is decoded as before. -/
theorem Keeps.decodeTagged (h : Keeps part) {choice : Choice Shape.Carrier α} {s : Shape}
    (hfields : ∀ tag?, s.fields tag? = choice.fieldsOf tag?)
    (hreserved : ∀ tag?, s.reserved tag? =
      some (tagName :: (choice.fieldsOf tag?).map (·.name)))
    (hitem : ∀ tag? i, s.item tag? (i + 1) = (choice.fieldsOf tag?)[i]?.map (·.shape))
    {v v' : Value} {x : α} (hv : Rearranged (some s) v v')
    (hx : (Tagged.ofValue choice v >>= Tagged.decode part) = .ok x) :
    (Tagged.ofValue choice v' >>= Tagged.decode part) = .ok x := by
  obtain ⟨t, ht, hdecode⟩ := bind_eq_ok_iff.1 hx
  cases hv with
  | same => exact hx
  | array hitems =>
    cases hitems with
    | nil => cases ht
    | cons htag hitems =>
      rename_i tag tag' items items'
      obtain ⟨variant, hvariant, ht⟩ := bind_eq_ok_iff.1 ht
      cases ht
      obtain rfl := htag.eq_of_nesting (Choice.nesting_of_ofTag hvariant)
      refine bind_eq_ok_iff.2 ⟨⟨variant, .items items'⟩, bind_eq_ok_iff.2 ⟨variant, hvariant, rfl⟩, ?_⟩
      obtain ⟨hlength, hvalues⟩ := hitems.getElem?
      refine Tagged.decode_items_of_replaced hlength (fun i f v v' hf hv hv' y hy => ?_) hdecode
      have hvalue := hvalues i v v' hv hv'
      have hfs : choice.fieldsOf (some tag') = variant.fields := by
        rw [Choice.fieldsOf, Option.map_some, hvariant]
      rw [itemShape, Option.bind_some, List.head?_cons, hitem, hfs, hf] at hvalue
      exact h f.shape v v' y hvalue hy
  | object hkept hadded hperm =>
    rename_i members kept added members'
    have hfs : (Shape.fields (tag? members) s) = t.variant.fields := by
      rw [hfields, Choice.fieldsOf_tag? ht]
    have hunknown : ∀ m ∈ added, m.1 ≠ tagName ∧ m.1 ∉ t.variant.fields.map (·.name) := by
      intro m hm
      obtain ⟨-, names, hnames, hfresh⟩ := hadded m hm
      rw [Option.bind_some, hreserved, Choice.fieldsOf_tag? ht] at hnames
      obtain rfl := Option.some.inj hnames
      exact not_or.1 (mt List.mem_cons.2 hfresh)
    obtain ⟨fields, kept', fields', hbody, hkept', hperm', ht'⟩ :=
      Tagged.ofMembers_of_perm (fun m m' hm => hm.1)
        (fun m m' variant hm htag => hm.2.eq_of_nesting (Choice.nesting_of_ofTag htag))
        hkept.forall₂ (fun m hm => (hunknown m hm).1) hperm ht
    obtain ⟨variant, body⟩ := t
    obtain rfl : body = .members fields := hbody
    refine bind_eq_ok_iff.2 ⟨⟨variant, .members fields'⟩, ht', ?_⟩
    refine Tagged.decode_members_of_replaced (hkept'.imp fun m m' => h.replaces fun name => ?_)
      (fun m hm => (hunknown m hm).2) hperm' hdecode
    rw [memberShape, Option.bind_some, hfs]

end Parts

/-- A part that may be absent has the shape that it has if it is present. -/
theorem Rearranged.of_option {s : Shape} {v v' : Value} (h : Rearranged (some (.option s)) v v') :
    Rearranged (some s) v v' := by
  cases h with
  | same => exact .same
  | array h => exact .array h
  | object hkept hadded hperm => exact .object hkept hadded hperm

theorem decodeWith_option {part : (s : Shape) → Value → Except Fault s.Carrier} {s : Shape} {v : Value}
    (h : v ≠ .null) :
    decodeWith part (.option s) v = (decodeWith part s v >>= fun x => .ok (some x)) := by
  cases v with
  | null => exact absurd rfl h
  | _ => rfl

/-- **What is decoded of a value is decoded of the value with its members rearranged**, if that is so of
its parts. -/
theorem keeps_decodeWith {part : (s : Shape) → Value → Except Fault s.Carrier} (h : Keeps part) :
    Keeps (decodeWith part) := by
  intro s
  induction s with
  | string =>
    intro v v' x hv hx
    rwa [hv.eq_of_nesting (nesting_of_decodeString hx)]
  | int =>
    intro v v' x hv hx
    obtain ⟨n, hn, -⟩ := bind_eq_ok_iff.1 hx
    rwa [hv.eq_of_nesting (nesting_of_decodeInteger hn)]
  | word =>
    intro v v' x hv hx
    obtain ⟨n, hn, -⟩ := bind_eq_ok_iff.1 hx
    rwa [hv.eq_of_nesting (nesting_of_decodeInteger hn)]
  | float =>
    intro v v' x hv hx
    rwa [hv.eq_of_nesting (nesting_of_decodeFloat hx)]
  | loopKind =>
    intro v v' x hv hx
    exact keeps_enumeration (fun _ => rfl) (fun _ => rfl) hv hx
  | operator =>
    intro v v' x hv hx
    exact keeps_enumeration (fun _ => rfl) (fun _ => rfl) hv hx
  | var =>
    intro v v' x hv hx
    exact h.decodeVar hv hx
  | expr =>
    intro v v' x hv hx
    exact h.decodeTagged (fun _ => rfl) (fun _ => rfl) (fun _ _ => rfl) hv hx
  | stmt =>
    intro v v' x hv hx
    exact h.decodeTagged (fun _ => rfl) (fun _ => rfl) (fun _ _ => rfl) hv hx
  | option s ih =>
    intro v v' x hv hx
    by_cases hnull : v = .null
    · rwa [hv.eq_of_nesting (by rw [hnull, Value.nesting])]
    · have hnull' : v' ≠ .null := by
        rintro rfl
        cases hv
        exact hnull rfl
      rw [decodeWith_option hnull] at hx
      rw [decodeWith_option hnull']
      obtain ⟨y, hy, hx⟩ := bind_eq_ok_iff.1 hx
      exact bind_eq_ok_iff.2 ⟨y, ih v v' y hv.of_option hy, hx⟩
  | list s _ =>
    intro v v' x hv hx
    obtain ⟨items, hitems, hx⟩ := bind_eq_ok_iff.1 hx
    cases hv with
    | same => exact bind_eq_ok_iff.2 ⟨items, hitems, hx⟩
    | array hrearranged =>
      cases hitems
      rename_i items'
      refine bind_eq_ok_iff.2 ⟨items', rfl, mapM_eq_ok_of_forall₂ ?_ hx⟩
      exact (hrearranged.forall₂ fun _ => rfl).imp fun v v' hv x => h s v v' x hv
    | object => cases hitems

/-- **A value with its members rearranged is decoded to the same.** -/
theorem keeps_decode (depth : Nat) : Keeps (decode depth) := by
  induction depth with
  | zero => exact keeps_decodeWith (by rintro s v v' x - ⟨⟩)
  | succ depth ih => exact keeps_decodeWith ih

/-! ### Whole texts -/

/-- The tag of a statement stays a name. -/
theorem Rearranged.tagNamed {v v' : Value} (h : Rearranged (some .stmt) v v') (hv : v.TagNamed) :
    v'.TagNamed := by
  cases h with
  | same => exact hv
  | array hitems =>
    cases hitems with
    | nil => exact hv
    | cons htag =>
      obtain ⟨name, rfl⟩ := hv
      exact ⟨name, htag.eq_of_nesting (by rw [Value.nesting])⟩
  | object hkept hadded hperm =>
    rename_i members kept added members'
    intro m' hm' hname
    rcases List.mem_append.1 (hperm.mem_iff.2 hm') with hm' | hm'
    · obtain ⟨m, hm, heq, hvalue⟩ := hkept.exists_of_mem hm'
      obtain ⟨name, hstring⟩ := hv m hm (heq.trans hname)
      rw [hstring] at hvalue
      exact ⟨name, hvalue.eq_of_nesting (by rw [Value.nesting])⟩
    · obtain ⟨-, names, hnames, hfresh⟩ := hadded m' hm'
      cases hnames
      rw [hname] at hfresh
      exact absurd List.mem_cons_self hfresh

namespace Stmt

/-- A text is that of a program if it spells a value that is decoded to the program, and names its
variant. -/
theorem ofJson_eq_ok_iff {text : String} {s : Stmt} : ofJson text = .ok s ↔
    ∃ v, TextSpells text v ∧ v.nesting ≤ nestingLimit ∧ v.TagNamed ∧
      decode (nestingLimit + 1) .stmt v = .ok s :=
  readText_tagged_iff

/-- **A program is read in the same way with its members rearranged.** Whatever value a text of the
program spells, any text of a value with the members in another order, at any depth, and with members
added that mean nothing where they stand, is a text of the same program. -/
theorem ofJson_of_rearranged {text : String} {s : Stmt} (h : ofJson text = .ok s) :
    (∃ v, TextSpells text v) ∧ ∀ v v' text', TextSpells text v → Rearranged (some .stmt) v v' →
      TextSpells text' v' → ofJson text' = .ok s := by
  obtain ⟨v, hspells, hdepth, hname, hdecode⟩ := ofJson_eq_ok_iff.1 h
  refine ⟨⟨v, hspells⟩, fun w w' text' hw hrearranged hspells' => ?_⟩
  obtain rfl := hw.unique hspells
  exact ofJson_eq_ok_iff.2 ⟨w', hspells', Nat.le_trans hrearranged.nesting_le hdepth,
    hrearranged.tagNamed hname, keeps_decode _ .stmt w w' s hrearranged hdecode⟩

/-- An integer that is evaluated. -/
def plain : String := "\x7b\"kind\":\"evaluate\",\"value\":\x7b\"kind\":\"int\",\"value\":7\x7d\x7d"

/-- The same with its tags last, and with members among the others that are fields of other variants. -/
def scrambled : String :=
  "\x7b\"min\" : null,\"value\":\x7b\"value\":7, \"name\":-1,\"kind\":\"int\"\x7d,
    \"kind\":\"evaluate\"\x7d"

/-- What the integer is written as. -/
def plainInteger : Value := .object [("kind", .string "int"), ("value", .number (.int 7))]

/-- What it is written as in the other text. -/
def scrambledInteger : Value :=
  .object [("value", .number (.int 7)), ("name", .number (.int (-1))), ("kind", .string "int")]

/-- The value of the first text. -/
def plainValue : Value := .object [("kind", .string "evaluate"), ("value", plainInteger)]

/-- The value of the other one. -/
def scrambledValue : Value :=
  .object [("min", .null), ("value", scrambledInteger), ("kind", .string "evaluate")]

theorem textSpells_plain : TextSpells plain plainValue := by
  have hcomma : Separates false [','] := separates_comma blanks_nil
  have hinteger := Spells.object <|
    .member blanks_nil (readString_escaped "kind" []) blanks_nil blanks_nil
      (spells_writeString "int") <|
    .member hcomma (readString_escaped "value" []) blanks_nil blanks_nil
      (.scalar (rfl : readScalar ['7'] = _)) <|
    .close blanks_nil
  have hobject := Spells.object <|
    .member blanks_nil (readString_escaped "kind" []) blanks_nil blanks_nil
      (spells_writeString "evaluate") <|
    .member hcomma (readString_escaped "value" []) blanks_nil blanks_nil hinteger <|
    .close blanks_nil
  exact ⟨[], _, [], blanks_nil, hobject, blanks_nil, rfl⟩

theorem textSpells_scrambled : TextSpells scrambled scrambledValue := by
  have hcomma : Separates false [','] := separates_comma blanks_nil
  have hspace := blanks_of_all [' '] rfl
  have hinteger := Spells.object <|
    .member blanks_nil (readString_escaped "value" []) blanks_nil blanks_nil
      (.scalar (rfl : readScalar ['7'] = _)) <|
    .member (separates_comma hspace) (readString_escaped "name" []) blanks_nil blanks_nil
      (.scalar (rfl : readScalar ['-', '1'] = _)) <|
    .member hcomma (readString_escaped "kind" []) blanks_nil blanks_nil
      (spells_writeString "int") <|
    .close blanks_nil
  have hobject := Spells.object <|
    .member blanks_nil (readString_escaped "min" []) hspace hspace
      (.scalar (rfl : readScalar "null".toList = _)) <|
    .member hcomma (readString_escaped "value" []) blanks_nil blanks_nil hinteger <|
    .member (separates_comma (blanks_of_all "\n    ".toList rfl)) (readString_escaped "kind" [])
      blanks_nil blanks_nil (spells_writeString "evaluate") <|
    .close blanks_nil
  exact ⟨[], _, [], blanks_nil, hobject, blanks_nil, rfl⟩

theorem ofJson_of_rearranged_evaluate :
    ofJson plain = .ok (.evaluate (.int 7)) ∧ ofJson scrambled = .ok (.evaluate (.int 7)) := by
  -- the name of a variable means nothing in an integer
  have hinteger : Rearranged (some .expr) plainInteger scrambledInteger := by
    refine @Rearranged.object _ _ _ [("name", .number (.int (-1)))] _
      (.cons .same (.cons .same .nil)) ?_ ?_
    · intro m hm
      obtain rfl := List.mem_singleton.1 hm
      exact ⟨by rw [Value.nesting], _, rfl, by decide⟩
    · exact (List.Perm.swap _ _ _).trans (.cons _ (.swap _ _ _))
  -- and the lower bound of a loop means nothing here
  have hevaluate : Rearranged (some .stmt) plainValue scrambledValue := by
    refine @Rearranged.object _ _ _ [("min", .null)] _ (.cons .same (.cons hinteger .nil)) ?_ ?_
    · intro m hm
      obtain rfl := List.mem_singleton.1 hm
      exact ⟨by rw [Value.nesting], _, rfl, by decide⟩
    · exact (List.reverse_perm _).symm
  have htag : plainValue.TagNamed := by simp [plainValue, Value.TagNamed, TagsNamed, tagName]
  have hread : ofJson plain = .ok (.evaluate (.int 7)) :=
    ofJson_eq_ok_iff.2 ⟨plainValue, textSpells_plain, by decide, htag, rfl⟩
  exact ⟨hread, (ofJson_of_rearranged hread).2 _ _ _ textSpells_plain hevaluate
    textSpells_scrambled⟩

end Stmt

end AccessGraph
