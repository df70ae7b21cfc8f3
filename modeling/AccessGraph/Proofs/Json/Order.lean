import AccessGraph.Json.Variant
import AccessGraph.Proofs.Json.Record
import AccessGraph.Proofs.Result
import Mathlib.Data.List.Forall2
/-!
# The order of members

Members may come in any order, and those that name no field may be left out: the same record is collected
from them. This is so although a second member of one name is a fault, as it is one in any order.

* `Json.Slots.putMember_comm` : two members may change places.
* `Json.Slots.foldlM_putMember_perm` : **members may come in any order.**
* `Json.Slots.foldlM_putMember_of_unknown` : members that name no field change nothing.
* `Json.Slots.foldlM_putMember_of_forall₂` : a value may be replaced by one that is decoded to the same.
* `Json.Record.fromItems_of_replaced` : the same of items.
* `Json.Tagged.ofMembers_eq_ok_iff` : the tag is the only member of its name, wherever it stands.
-/

namespace AccessGraph.Json

variable {σ : Type} {C : σ → Type} {α : Type}

namespace Slots

variable {value : (s : σ) → Value → Except Fault (C s)}

/-- A member gives a value to the first field, or else to one of the others. -/
theorem putMember_cons_eq_ok_iff {f : Field C} {fs : List (Field C)} {slot : Option (C f.shape)}
    {slots : Slots C fs} {m : String × Value} {result : Slots C (f :: fs)} :
    putMember value (f :: fs) (cons slot slots) m = .ok result ↔
      (f.name = m.1 ∧ slot = none ∧ ∃ x, value f.shape m.2 = .ok x ∧ result = cons (some x) slots) ∨
      (f.name ≠ m.1 ∧ ∃ others, putMember value fs slots m = .ok others ∧
        result = cons slot others) := by
  by_cases hname : f.name = m.1
  · cases slot with
    | none =>
      rw [putMember_self value slots hname, bind_eq_ok_iff]
      simp [hname, eq_comm (a := result)]
    | some x =>
      have hfault : putMember value (f :: fs) (cons (some x) slots) m = .error (.duplicateField m.1) :=
        if_pos hname
      simp [hfault, hname]
  · rw [putMember_of_ne value slot slots hname, bind_eq_ok_iff]
    simp [hname, eq_comm (a := result)]

/-- Two members may change places. -/
theorem putMember_comm {fs : List (Field C)} {slots first second : Slots C fs}
    {m m' : String × Value} (h : putMember value fs slots m = .ok first)
    (h' : putMember value fs first m' = .ok second) :
    ∃ first', putMember value fs slots m' = .ok first' ∧
      putMember value fs first' m = .ok second := by
  induction fs with
  | nil => exact ⟨slots, rfl, rfl⟩
  | cons f fs ih =>
    obtain ⟨slot, slots⟩ := slots
    obtain ⟨hm, hslot, x, hx, rfl⟩ | ⟨hm, others, hothers, rfl⟩ := putMember_cons_eq_ok_iff.1 h
    · -- the first member fills the first field, so the second one fills another
      obtain ⟨-, hfilled, -⟩ | ⟨hm', others, hothers, rfl⟩ := putMember_cons_eq_ok_iff.1 h'
      · cases hfilled
      · refine ⟨cons slot others, putMember_cons_eq_ok_iff.2 (.inr ⟨hm', others, hothers, rfl⟩), ?_⟩
        exact putMember_cons_eq_ok_iff.2 (.inl ⟨hm, hslot, x, hx, rfl⟩)
    · obtain ⟨hm', hslot, x, hx, rfl⟩ | ⟨hm', others', hothers', rfl⟩ :=
        putMember_cons_eq_ok_iff.1 h'
      · refine ⟨cons (some x) slots, putMember_cons_eq_ok_iff.2 (.inl ⟨hm', hslot, x, hx, rfl⟩), ?_⟩
        exact putMember_cons_eq_ok_iff.2 (.inr ⟨hm, others, hothers, rfl⟩)
      · obtain ⟨between, hbetween, hend⟩ := ih hothers hothers'
        refine ⟨cons slot between, putMember_cons_eq_ok_iff.2 (.inr ⟨hm', between, hbetween, rfl⟩), ?_⟩
        exact putMember_cons_eq_ok_iff.2 (.inr ⟨hm, others', hend, rfl⟩)

/-- **Members may come in any order.** -/
theorem foldlM_putMember_perm {fs : List (Field C)} {members members' : List (String × Value)}
    (hperm : members.Perm members') {slots result : Slots C fs}
    (h : members.foldlM (putMember value fs) slots = .ok result) :
    members'.foldlM (putMember value fs) slots = .ok result := by
  induction hperm generalizing slots with
  | nil => exact h
  | cons m _ ih =>
    rw [List.foldlM_cons] at h ⊢
    obtain ⟨first, hfirst, hrest⟩ := bind_eq_ok_iff.1 h
    exact bind_eq_ok_iff.2 ⟨first, hfirst, ih hrest⟩
  | swap m m' members =>
    rw [List.foldlM_cons] at h ⊢
    obtain ⟨first, hfirst, h⟩ := bind_eq_ok_iff.1 h
    rw [List.foldlM_cons] at h
    obtain ⟨second, hsecond, hrest⟩ := bind_eq_ok_iff.1 h
    obtain ⟨first', hfirst', hsecond'⟩ := putMember_comm hfirst hsecond
    refine bind_eq_ok_iff.2 ⟨first', hfirst', ?_⟩
    rw [List.foldlM_cons]
    exact bind_eq_ok_iff.2 ⟨second, hsecond', hrest⟩
  | trans _ _ ih ih' => exact ih' (ih h)

/-- A member that names no field changes nothing. -/
theorem putMember_of_unknown {fs : List (Field C)} {m : String × Value}
    (h : m.1 ∉ fs.map (·.name)) (slots : Slots C fs) : putMember value fs slots m = .ok slots := by
  induction fs with
  | nil => rfl
  | cons f fs ih =>
    obtain ⟨slot, slots⟩ := slots
    obtain ⟨hfirst, hothers⟩ := not_or.1 (mt List.mem_cons.2 h)
    exact putMember_cons_eq_ok_iff.2 (.inr ⟨Ne.symm hfirst, slots, ih hothers slots, rfl⟩)

/-- Members that name no field change nothing. -/
theorem foldlM_putMember_of_unknown {fs : List (Field C)} {members : List (String × Value)}
    (h : ∀ m ∈ members, m.1 ∉ fs.map (·.name)) (slots : Slots C fs) :
    members.foldlM (putMember value fs) slots = .ok slots := by
  induction members with
  | nil => rfl
  | cons m members ih =>
    obtain ⟨hm, hmembers⟩ := List.forall_mem_cons.1 h
    rw [List.foldlM_cons]
    exact bind_eq_ok_iff.2 ⟨slots, putMember_of_unknown hm slots, ih hmembers⟩

/-- What is decoded of one value is decoded of the other as well, in the shape of the field that the
member names. -/
def Replaces (value : (s : σ) → Value → Except Fault (C s)) (fs : List (Field C))
    (m m' : String × Value) : Prop :=
  m.1 = m'.1 ∧ ∀ f, fs.find? (·.name = m.1) = some f →
    ∀ x, value f.shape m.2 = .ok x → value f.shape m'.2 = .ok x

/-- A value may be replaced by one that is decoded to the same. -/
theorem putMember_of_replaces {fs : List (Field C)} {m m' : String × Value}
    (h : Replaces value fs m m') {slots result : Slots C fs}
    (hput : putMember value fs slots m = .ok result) : putMember value fs slots m' = .ok result := by
  obtain ⟨hname, hvalue⟩ := h
  induction fs with
  | nil => exact hput
  | cons f fs ih =>
    obtain ⟨slot, slots⟩ := slots
    obtain ⟨hm, hslot, x, hx, rfl⟩ | ⟨hm, others, hothers, rfl⟩ := putMember_cons_eq_ok_iff.1 hput
    · have hx' := hvalue f (List.find?_cons_of_pos (decide_eq_true hm)) x hx
      exact putMember_cons_eq_ok_iff.2 (.inl ⟨hname ▸ hm, hslot, x, hx', rfl⟩)
    · refine putMember_cons_eq_ok_iff.2 (.inr ⟨hname ▸ hm, others, ih hothers ?_, rfl⟩)
      intro g hg
      exact hvalue g ((List.find?_cons_of_neg (by simpa using hm)).trans hg)

/-- Values may be replaced by others that are decoded to the same. -/
theorem foldlM_putMember_of_forall₂ {fs : List (Field C)} {members members' : List (String × Value)}
    (h : List.Forall₂ (Replaces value fs) members members') {slots result : Slots C fs}
    (hput : members.foldlM (putMember value fs) slots = .ok result) :
    members'.foldlM (putMember value fs) slots = .ok result := by
  induction h generalizing slots with
  | nil => exact hput
  | cons hm _ ih =>
    rw [List.foldlM_cons] at hput ⊢
    obtain ⟨first, hfirst, hrest⟩ := bind_eq_ok_iff.1 hput
    exact bind_eq_ok_iff.2 ⟨first, putMember_of_replaces hm hfirst, ih hrest⟩

end Slots

/-- **Items may be replaced by others that are decoded to the same**, each in the shape of the field at
its position. -/
theorem Record.fromItems_of_replaced {value : (s : σ) → Value → Except Fault (C s)} {expected : String}
    {fs : List (Field C)} {items items' left : List Value} {record : Record C fs} {before : Nat}
    (hlength : items.length = items'.length)
    (hvalue : ∀ (i : Nat) f v v', fs[i]? = some f → items[i]? = some v → items'[i]? = some v' →
      ∀ x, value f.shape v = .ok x → value f.shape v' = .ok x)
    (h : fromItems (Tagged.nextValue value) expected fs before items = .ok (record, left)) :
    ∃ left', fromItems (Tagged.nextValue value) expected fs before items' = .ok (record, left') ∧
      left.length = left'.length := by
  induction fs generalizing items items' before with
  | nil =>
    cases h
    exact ⟨items', rfl, hlength⟩
  | cons f fs ih =>
    obtain ⟨⟨slot, others⟩, hnext, hrest⟩ := bind_eq_ok_iff.1 h
    -- the field gets the same value from both lists, or none
    obtain ⟨others', hnext', hothers, hvalues⟩ : ∃ others',
        Tagged.nextValue value f.shape items' = .ok (slot, others') ∧
          others.length = others'.length ∧
          ∀ (i : Nat) g v v', fs[i]? = some g → others[i]? = some v → others'[i]? = some v' →
            ∀ x, value g.shape v = .ok x → value g.shape v' = .ok x := by
      cases items with
      | nil =>
        obtain rfl := List.length_eq_zero_iff.1 hlength.symm
        cases hnext
        exact ⟨[], rfl, rfl, by rintro i g v v' - ⟨⟩⟩
      | cons v items =>
        obtain ⟨v', items', rfl⟩ := List.exists_cons_of_length_eq_add_one hlength.symm
        obtain ⟨y, hy, hnext⟩ := bind_eq_ok_iff.1 hnext
        cases hnext
        have hy' := hvalue 0 f v v' rfl rfl rfl y hy
        exact ⟨items', bind_eq_ok_iff.2 ⟨y, hy', rfl⟩, Nat.succ.inj hlength, fun i => hvalue (i + 1)⟩
    dsimp only at hrest
    cases hx : slot.or f.default with
    | none =>
      rw [hx] at hrest
      cases hrest
    | some y =>
      rw [hx] at hrest
      obtain ⟨⟨fields, _⟩, hfields, hrecord⟩ := bind_eq_ok_iff.1 hrest
      cases hrecord
      obtain ⟨left', hfields', hleft⟩ := ih hothers hvalues hfields
      refine ⟨left', bind_eq_ok_iff.2 ⟨(slot, others'), hnext', ?_⟩, hleft⟩
      dsimp only
      rw [hx]
      exact bind_eq_ok_iff.2 ⟨(fields, left'), hfields', rfl⟩

namespace Tagged

variable {value : (s : σ) → Value → Except Fault (C s)}

/-- A record is decoded from its items as before if each item is. -/
theorem decode_items_of_replaced {variant : Variant C α} {items items' : List Value} {x : α}
    (hlength : items.length = items'.length)
    (hvalue : ∀ (i : Nat) f v v', variant.fields[i]? = some f → items[i]? = some v →
      items'[i]? = some v' → ∀ x, value f.shape v = .ok x → value f.shape v' = .ok x)
    (h : decode value ⟨variant, .items items⟩ = .ok x) :
    decode value ⟨variant, .items items'⟩ = .ok x := by
  obtain ⟨⟨record, left⟩, hrecord, hend⟩ := bind_eq_ok_iff.1 h
  obtain ⟨left', hrecord', hleft⟩ := Record.fromItems_of_replaced hlength hvalue hrecord
  refine bind_eq_ok_iff.2 ⟨(record, left'), hrecord', ?_⟩
  dsimp only at hend ⊢
  split_ifs at hend with hempty
  rw [List.isEmpty_iff_length_eq_zero, hleft, ← List.isEmpty_iff_length_eq_zero] at hempty
  rw [if_pos hempty, hend]

/-- A record is decoded from its members as before if each member is, whatever members that name no
field are added, and in any order. -/
theorem decode_members_of_replaced {variant : Variant C α}
    {members kept added members' : List (String × Value)} {x : α}
    (hkept : List.Forall₂ (Slots.Replaces value variant.fields) members kept)
    (hadded : ∀ m ∈ added, m.1 ∉ variant.fields.map (·.name))
    (hperm : (kept ++ added).Perm members')
    (h : decode value ⟨variant, .members members⟩ = .ok x) :
    decode value ⟨variant, .members members'⟩ = .ok x := by
  obtain ⟨slots, hslots, hrecord⟩ := bind_eq_ok_iff.1 h
  refine bind_eq_ok_iff.2 ⟨slots, ?_, hrecord⟩
  refine Slots.foldlM_putMember_perm hperm ?_
  rw [List.foldlM_append]
  exact bind_eq_ok_iff.2 ⟨slots, Slots.foldlM_putMember_of_forall₂ hkept hslots,
    Slots.foldlM_putMember_of_unknown hadded slots⟩

/-- Members behind the tag are collected if no other one is a tag. -/
theorem ofMembers_some_eq_ok_iff {choice : Choice C α} {variant : Variant C α}
    {before members : List (String × Value)} {t : Tagged C α} :
    ofMembers choice (some variant) before members = .ok t ↔
      members.filter (·.1 = tagName) = [] ∧
        t = ⟨variant, .members (before.reverse ++ members.filter (·.1 ≠ tagName))⟩ := by
  induction members generalizing before with
  | nil => simp [ofMembers, eq_comm]
  | cons m members ih =>
    obtain ⟨name, v⟩ := m
    rw [ofMembers]
    by_cases hname : name = tagName
    · simp [hname]
    · simp [hname, ih]

/-- The tag is the only member of its name, wherever it stands. -/
theorem ofMembers_eq_ok_iff {choice : Choice C α} {before members : List (String × Value)}
    {t : Tagged C α} :
    ofMembers choice none before members = .ok t ↔
      ∃ tag variant, members.filter (·.1 = tagName) = [(tagName, tag)] ∧
        choice.ofTag tag = .ok variant ∧
          t = ⟨variant, .members (before.reverse ++ members.filter (·.1 ≠ tagName))⟩ := by
  induction members generalizing before with
  | nil => simp [ofMembers]
  | cons m members ih =>
    obtain ⟨name, v⟩ := m
    rw [ofMembers]
    by_cases hname : name = tagName
    · subst hname
      simp only [if_true, bind_eq_ok_iff, ofMembers_some_eq_ok_iff, List.filter_cons_of_pos,
        List.filter_cons_of_neg, decide_true, ne_eq, not_true, decide_false, Bool.false_eq_true,
        not_false_eq_true, List.cons.injEq, Prod.mk.injEq, true_and]
      constructor
      · rintro ⟨variant, hvariant, hnone, rfl⟩
        exact ⟨v, variant, ⟨rfl, hnone⟩, hvariant, rfl⟩
      · rintro ⟨_, variant, ⟨rfl, hnone⟩, hvariant, rfl⟩
        exact ⟨variant, hvariant, hnone, rfl⟩
    · simp [hname, ih]

/-- The tag and the fields are found in any order, whatever members of other names are added. -/
theorem ofMembers_of_perm {choice : Choice C α} {R : String × Value → String × Value → Prop}
    {members kept added members' : List (String × Value)} {t : Tagged C α}
    (hname : ∀ m m', R m m' → m.1 = m'.1)
    (htag : ∀ m m' variant, R m m' → choice.ofTag m.2 = .ok variant → m'.2 = m.2)
    (hkept : List.Forall₂ R members kept) (hadded : ∀ m ∈ added, m.1 ≠ tagName)
    (hperm : (kept ++ added).Perm members') (h : ofMembers choice none [] members = .ok t) :
    ∃ fields kept' fields', t.body = .members fields ∧ List.Forall₂ R fields kept' ∧
      (kept' ++ added).Perm fields' ∧
        ofMembers choice none [] members' = .ok ⟨t.variant, .members fields'⟩ := by
  obtain ⟨tag, variant, hfilter, hvariant, rfl⟩ := ofMembers_eq_ok_iff.1 h
  have hsplit : ∀ p : String → Bool,
      List.Forall₂ R (members.filter (p ·.1)) (kept.filter (p ·.1)) := by
    intro p
    refine List.rel_filter (fun m m' hm => ?_) hkept
    show p m.1 = true ↔ p m'.1 = true
    rw [hname m m' hm]
  have hnone : added.filter (·.1 = tagName) = [] := by simpa using hadded
  have hall : added.filter (·.1 ≠ tagName) = added := by simpa using hadded
  -- the tag is the same one, and still the only one
  have htags : kept.filter (·.1 = tagName) = [(tagName, tag)] := by
    have hkeptTag := hsplit (fun name => decide (name = tagName))
    rw [hfilter] at hkeptTag
    obtain ⟨⟨name, tag'⟩, rest, hm, hnil, heq⟩ := List.forall₂_cons_left_iff.1 hkeptTag
    rw [heq, List.forall₂_nil_left_iff.1 hnil]
    obtain rfl : tagName = name := hname _ _ hm
    obtain rfl : tag' = tag := htag _ _ variant hm hvariant
    rfl
  have htags' : members'.filter (·.1 = tagName) = [(tagName, tag)] := by
    have hfiltered := hperm.filter (·.1 = tagName)
    rw [List.filter_append, htags, hnone, List.append_nil] at hfiltered
    exact (List.singleton_perm.1 hfiltered).symm
  refine ⟨_, _, members'.filter (·.1 ≠ tagName), rfl, hsplit (fun name => decide (name ≠ tagName)), ?_,
    ofMembers_eq_ok_iff.2 ⟨tag, variant, htags', hvariant, rfl⟩⟩
  have hfiltered := hperm.filter (·.1 ≠ tagName)
  rwa [List.filter_append, hall] at hfiltered

end Tagged

end AccessGraph.Json
