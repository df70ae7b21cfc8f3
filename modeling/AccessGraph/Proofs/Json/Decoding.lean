import AccessGraph.Proofs.Json.Nesting
/-!
# What a decoder establishes

Whatever the decoder of the parts establishes holds of all parts of a record, in whatever order and
form they come, as long as it holds of what absent fields are taken to be.

* `Json.Record.All`, `Json.Slots.All` : all values of a record have a property.
* `Json.Slots.all_of_put`, `Json.Slots.all_of_close` : members are put into a record one by one.
* `Json.Record.all_of_fromItems` : items are taken one after the other.
* `Json.Tagged.all_of_decode` : **what holds of each decoded part holds of the record that a value is
  built from.**
* `Json.Tagged.of_ofValue` : the fields of a value of several variants lie inside of it.
-/

namespace AccessGraph.Json

variable {σ : Type} {C : σ → Type} {α : Type} {P : (s : σ) → C s → Prop}

/-- All values of a record have a property. -/
def Record.All (P : (s : σ) → C s → Prop) : (fs : List (Field C)) → Record C fs → Prop
  | [], _ => True
  | f :: fs, (x, record) => P f.shape x ∧ All P fs record

/-- All values that there are have a property. -/
def Slots.All (P : (s : σ) → C s → Prop) : (fs : List (Field C)) → Slots C fs → Prop
  | [], _ => True
  | f :: fs, (slot, slots) => (∀ x ∈ slot, P f.shape x) ∧ All P fs slots

/-- What the absent fields are taken to be has a property. -/
def DefaultsHave (P : (s : σ) → C s → Prop) (fs : List (Field C)) : Prop :=
  ∀ f ∈ fs, ∀ x ∈ f.default, P f.shape x

/-- A value, or else the default, has the property. -/
theorem of_or_default {f : Field C} {slot : Option (C f.shape)} {x : C f.shape}
    (hslot : ∀ x ∈ slot, P f.shape x) (hdefault : ∀ x ∈ f.default, P f.shape x)
    (h : slot.or f.default = some x) : P f.shape x := by
  cases slot with
  | none => exact hdefault x h
  | some y => exact hslot x h

namespace Slots

theorem all_empty (fs : List (Field C)) : All P fs (empty fs) := by
  induction fs with
  | nil => exact trivial
  | cons f fs ih => exact ⟨(by rintro x ⟨⟩), ih⟩

/-- One more member. -/
theorem all_of_put {name : String} {value : (s : σ) → Except Fault (C s)} {fs : List (Field C)}
    {slots slots' : Slots C fs} (hvalue : ∀ s x, value s = .ok x → P s x) (hslots : All P fs slots)
    (h : put name value fs slots = .ok slots') : All P fs slots' := by
  induction fs with
  | nil => exact trivial
  | cons f fs ih =>
    obtain ⟨slot, slots⟩ := slots
    simp only [put] at h
    split at h
    · split at h
      · cases h
      · obtain ⟨x, hx, h⟩ := bind_eq_ok_iff.1 h
        cases h
        refine ⟨?_, hslots.2⟩
        rintro y ⟨⟩
        exact hvalue f.shape x hx
    · obtain ⟨others, hothers, h⟩ := bind_eq_ok_iff.1 h
      cases h
      exact ⟨hslots.1, ih hslots.2 hothers⟩

/-- The record in the end. -/
theorem all_of_close {fs : List (Field C)} {slots : Slots C fs} {record : Record C fs}
    (hdefaults : DefaultsHave P fs) (hslots : All P fs slots) (h : close fs slots = .ok record) :
    Record.All P fs record := by
  induction fs with
  | nil => exact trivial
  | cons f fs ih =>
    obtain ⟨slot, slots⟩ := slots
    rw [close] at h
    split at h
    · cases h
    · rename_i x hx
      obtain ⟨others, hothers, h⟩ := bind_eq_ok_iff.1 h
      cases h
      refine ⟨of_or_default hslots.1 (hdefaults f List.mem_cons_self) hx, ih ?_ hslots.2 hothers⟩
      exact fun g hg => hdefaults g (List.mem_cons_of_mem f hg)

end Slots

/-- Fields out of items one after the other. -/
theorem Record.all_of_fromItems {value : (s : σ) → Value → Except Fault (C s)} {expected : String}
    {fs : List (Field C)} {before : Nat} {items left : List Value} {record : Record C fs}
    (hvalue : ∀ v ∈ items, ∀ s x, value s v = .ok x → P s x) (hdefaults : DefaultsHave P fs)
    (h : fromItems (Tagged.nextValue value) expected fs before items = .ok (record, left)) :
    All P fs record := by
  induction fs generalizing before items with
  | nil => exact trivial
  | cons f fs ih =>
    obtain ⟨⟨slot, others⟩, hnext, h⟩ := bind_eq_ok_iff.1 h
    -- the next item gives a value to the field, unless there is none
    have hslot : (∀ x ∈ slot, P f.shape x) ∧ ∀ v ∈ others, v ∈ items := by
      cases items with
      | nil =>
        cases hnext
        exact ⟨(by rintro x ⟨⟩), fun v hv => hv⟩
      | cons v items =>
        obtain ⟨x, hx, hnext⟩ := bind_eq_ok_iff.1 hnext
        cases hnext
        refine ⟨?_, fun u hu => List.mem_cons_of_mem v hu⟩
        rintro y ⟨⟩
        exact hvalue v List.mem_cons_self f.shape x hx
    dsimp only at h
    cases hx : slot.or f.default with
    | none =>
      rw [hx] at h
      cases h
    | some x =>
      rw [hx] at h
      obtain ⟨⟨rest, _⟩, hrest, h⟩ := bind_eq_ok_iff.1 h
      cases h
      refine ⟨of_or_default hslot.1 (hdefaults f List.mem_cons_self) hx, ih ?_ ?_ hrest⟩
      · exact fun v hv => hvalue v (hslot.2 v hv)
      · exact fun g hg => hdefaults g (List.mem_cons_of_mem f hg)

theorem Choice.mem_of_ofTag {choice : Choice C α} {v : Value} {variant : Variant C α}
    (h : choice.ofTag v = .ok variant) : variant ∈ choice.variants := by
  unfold ofTag at h
  split at h
  · exact mem_of_named h
  · rename_i n
    unfold numbered at h
    split at h
    · rename_i hvariant
      cases h
      exact List.mem_of_getElem? hvariant
    · cases h
  · cases h

namespace Tagged

/-- **What holds of each decoded part holds of the record that a value is built from.** The parts lie
no deeper than the fields of the value. -/
theorem all_of_decode {value : (s : σ) → Value → Except Fault (C s)} {t : Tagged C α} {x : α}
    (hvalue : ∀ v, v.nesting ≤ t.body.nesting → ∀ s x, value s v = .ok x → P s x)
    (hdefaults : DefaultsHave P t.variant.fields) (h : decode value t = .ok x) :
    ∃ record, Record.All P t.variant.fields record ∧ x = t.variant.build record := by
  obtain ⟨variant, body⟩ := t
  unfold decode at h
  cases body with
  | members members =>
    obtain ⟨slots, hslots, h⟩ := bind_eq_ok_iff.1 h
    obtain ⟨record, hrecord, h⟩ := bind_eq_ok_iff.1 h
    cases h
    refine ⟨record, Slots.all_of_close hdefaults ?_ hrecord, rfl⟩
    refine of_foldlM_eq_ok (fun m hm slots slots' hslots hput => ?_) (Slots.all_empty _) hslots
    exact Slots.all_of_put (hvalue m.2 (Value.nesting_le_nestingMembers hm)) hslots hput
  | items items =>
    obtain ⟨⟨record, left⟩, hrecord, h⟩ := bind_eq_ok_iff.1 h
    dsimp only at h
    split at h
    · cases h
      refine ⟨record, Record.all_of_fromItems (fun v hv => ?_) hdefaults hrecord, rfl⟩
      exact hvalue v (Value.nesting_le_nestingItems hv)
    · cases h

/-- The members apart from the tag are the fields. -/
theorem of_ofMembers {choice : Choice C α} {tag : Option (Variant C α)}
    (htag : ∀ variant ∈ tag, variant ∈ choice.variants) {before members : List (String × Value)}
    {t : Tagged C α} (h : ofMembers choice tag before members = .ok t) :
    t.variant ∈ choice.variants ∧
      ∃ ms, t.body = .members (before.reverse ++ ms) ∧
        Value.nestingMembers ms ≤ Value.nestingMembers members := by
  induction members generalizing tag before with
  | nil =>
    cases tag with
    | none => cases h
    | some variant =>
      cases h
      exact ⟨htag variant rfl, [], by rw [List.append_nil], Nat.le_refl _⟩
  | cons m members ih =>
    obtain ⟨name, v⟩ := m
    rw [Value.nestingMembers]
    by_cases hname : name = tagName
    · -- the tag is no field of its own
      cases tag with
      | some variant =>
        rw [ofMembers, if_pos hname] at h
        cases h
      | none =>
        rw [ofMembers, if_pos hname] at h
        obtain ⟨variant, hvariant, h⟩ := bind_eq_ok_iff.1 h
        obtain ⟨ht, ms, hbody, hms⟩ := ih (by rintro _ ⟨⟩; exact Choice.mem_of_ofTag hvariant) h
        exact ⟨ht, ms, hbody, Nat.le_trans hms (Nat.le_max_right _ _)⟩
    · have hnext : ofMembers choice tag ((name, v) :: before) members = .ok t := by
        cases tag <;> rwa [ofMembers, if_neg hname] at h
      obtain ⟨ht, ms, hbody, hms⟩ := ih htag hnext
      refine ⟨ht, (name, v) :: ms, by rw [hbody, List.reverse_cons, List.append_assoc]; rfl, ?_⟩
      rw [Value.nestingMembers]
      omega

/-- **The fields of a value of several variants lie inside of the value**, and it is one of these
variants. -/
theorem of_ofValue {choice : Choice C α} {v : Value} {t : Tagged C α}
    (h : ofValue choice v = .ok t) :
    t.variant ∈ choice.variants ∧ 1 + t.body.nesting ≤ v.nesting := by
  unfold ofValue at h
  split at h
  · cases h
  · rename_i tag items
    obtain ⟨variant, hvariant, h⟩ := bind_eq_ok_iff.1 h
    cases h
    refine ⟨Choice.mem_of_ofTag hvariant, ?_⟩
    rw [Value.nesting, Value.nestingItems]
    exact Nat.add_le_add_left (Nat.le_max_right _ _) 1
  · obtain ⟨ht, ms, hbody, hms⟩ := of_ofMembers (by rintro _ ⟨⟩) h
    refine ⟨ht, ?_⟩
    rw [hbody, Value.nesting]
    exact Nat.add_le_add_left hms 1
  · cases h

end Tagged

end AccessGraph.Json
