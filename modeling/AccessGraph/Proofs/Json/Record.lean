import AccessGraph.Json.Record
/-!
# Records from members in order

The members of an object may come in any order. Those that a printer writes come in the order of the
fields, one for each.

* `Json.find?_of_nodup` : names that are all different tell apart what they are names of.
* `Json.Record.Given` : members in the order of the fields, and the values that they give to the
  fields.
* `Json.Slots.foldlM_putMember_cons` : members of other names leave a field as it is.
* `Json.Slots.collect_of_given` : **the record of members in order has the values that they give.**
-/

namespace AccessGraph.Json

variable {σ : Type} {C : σ → Type}

/-- Names that are all different tell apart what they are names of. -/
theorem find?_of_nodup {β : Type} (name : β → String) {l : List β} (h : (l.map name).Nodup) {x : β}
    (hx : x ∈ l) : l.find? (fun y => name y = name x) = some x := by
  induction l with
  | nil => simp at hx
  | cons first others ih =>
    obtain ⟨hfirst, hothers⟩ := List.nodup_cons.1 h
    rcases List.mem_cons.1 hx with rfl | hx
    · exact List.find?_cons_of_pos (decide_eq_true rfl)
    · have hne : name first ≠ name x := by
        intro heq
        rw [heq] at hfirst
        exact hfirst (List.mem_map_of_mem hx)
      rw [List.find?_cons_of_neg (by simp [hne])]
      exact ih hothers hx

/-- The members have the names of the fields, in order, and stand for the values of the record as
far as `P` tells: `P s v x` says that the value `v` in the text stands for `x`, which is of shape
`s`. -/
def Record.Given (P : (s : σ) → Value → C s → Prop) :
    (fs : List (Field C)) → List (String × Value) → Record C fs → Prop
  | [], [], _ => True
  | f :: fs, (name, v) :: members, (x, record) =>
    name = f.name ∧ P f.shape v x ∧ Given P fs members record
  | _, _, _ => False

namespace Record.Given

variable {P Q : (s : σ) → Value → C s → Prop}

/-- Members in order have the names of the fields. -/
theorem names {fs : List (Field C)} {members : List (String × Value)} {record : Record C fs}
    (h : Given P fs members record) : members.map (·.1) = fs.map (·.name) := by
  induction fs generalizing members with
  | nil =>
    cases members with
    | nil => rfl
    | cons m members => exact h.elim
  | cons f fs ih =>
    cases members with
    | nil => exact h.elim
    | cons m members =>
      obtain ⟨hname, -, hrest⟩ := h
      rw [List.map_cons, List.map_cons, ih hrest, hname]

/-- What the values stand for may be told in another way. -/
theorem imp {fs : List (Field C)} {members : List (String × Value)} {record : Record C fs}
    (h : Given P fs members record)
    (himp : ∀ m ∈ members, ∀ (s : σ) (x : C s), P s m.2 x → Q s m.2 x) :
    Given Q fs members record := by
  induction fs generalizing members with
  | nil =>
    cases members with
    | nil => exact trivial
    | cons m members => exact h.elim
  | cons f fs ih =>
    cases members with
    | nil => exact h.elim
    | cons m members =>
      obtain ⟨hname, hvalue, hrest⟩ := h
      refine ⟨hname, himp m List.mem_cons_self f.shape record.1 hvalue, ih hrest ?_⟩
      exact fun m hm => himp m (List.mem_cons_of_mem _ hm)

end Record.Given

namespace Slots

/-- The value of the first field, if it has one, and those of the others. -/
def cons {f : Field C} {fs : List (Field C)} (slot : Option (C f.shape)) (slots : Slots C fs) :
    Slots C (f :: fs) := (slot, slots)

/-- All fields have the values of a record. -/
def ofRecord : (fs : List (Field C)) → Record C fs → Slots C fs
  | [], _ => ()
  | _ :: fs, (x, record) => cons (some x) (ofRecord fs record)

/-- Nothing is left to be filled in. -/
theorem close_ofRecord (fs : List (Field C)) (record : Record C fs) :
    close fs (ofRecord fs record) = .ok record := by
  induction fs with
  | nil => rfl
  | cons f fs ih =>
    obtain ⟨x, record⟩ := record
    show (close fs (ofRecord fs record) >>= fun record => .ok (x, record)) = _
    rw [ih]
    rfl

variable (value : (s : σ) → Value → Except Fault (C s))

/-- Give the field that a member names the value of the member. -/
def putMember (fs : List (Field C)) (slots : Slots C fs) (m : String × Value) :
    Except Fault (Slots C fs) := put m.1 (value · m.2) fs slots

/-- A member of another name leaves the first field as it is. -/
theorem putMember_of_ne {f : Field C} {fs : List (Field C)} (slot : Option (C f.shape))
    (slots : Slots C fs) {m : String × Value} (h : f.name ≠ m.1) :
    putMember value (f :: fs) (cons slot slots) m =
      (putMember value fs slots m >>= fun slots => .ok (cons slot slots)) := if_neg h

/-- A member gives the field of its name its value. -/
theorem putMember_self {f : Field C} {fs : List (Field C)} (slots : Slots C fs)
    {m : String × Value} (h : f.name = m.1) :
    putMember value (f :: fs) (cons none slots) m =
      (value f.shape m.2 >>= fun x => .ok (cons (some x) slots)) := if_pos h

/-- Members of other names leave the first field as it is. -/
theorem foldlM_putMember_cons {f : Field C} {fs : List (Field C)} (slot : Option (C f.shape))
    (slots : Slots C fs) {members : List (String × Value)} (h : f.name ∉ members.map (·.1)) :
    members.foldlM (putMember value (f :: fs)) (cons slot slots) =
      (members.foldlM (putMember value fs) slots >>= fun slots => .ok (cons slot slots)) := by
  induction members generalizing slots with
  | nil => rfl
  | cons m members ih =>
    obtain ⟨hne, hrest⟩ := not_or.1 (mt List.mem_cons.2 h)
    rw [List.foldlM_cons, List.foldlM_cons, putMember_of_ne value slot slots hne]
    cases hfirst : putMember value fs slots m with
    | error fault => rfl
    | ok slots' => exact ih slots' hrest

/-- Members in order give the fields their values. -/
theorem foldlM_putMember_of_given {fs : List (Field C)} (hnames : (fs.map (·.name)).Nodup)
    {members : List (String × Value)} {record : Record C fs}
    (h : Record.Given (fun s v x => value s v = .ok x) fs members record) :
    members.foldlM (putMember value fs) (empty fs) = .ok (ofRecord fs record) := by
  induction fs generalizing members with
  | nil =>
    cases members with
    | nil => rfl
    | cons m members => exact h.elim
  | cons f fs ih =>
    cases members with
    | nil => exact h.elim
    | cons m members =>
      obtain ⟨hname, hvalue, hrest⟩ := h
      obtain ⟨hother, hothers⟩ := List.nodup_cons.1 hnames
      rw [← hrest.names] at hother
      -- the first member fills the first field, and the others have other names
      have hfirst : putMember value (f :: fs) (empty (f :: fs)) m =
          .ok (cons (some record.1) (empty fs)) := by
        refine (putMember_self value (empty fs) hname.symm).trans ?_
        rw [hvalue]
        rfl
      rw [List.foldlM_cons, hfirst]
      show members.foldlM (putMember value (f :: fs)) (cons (some record.1) (empty fs)) = _
      rw [foldlM_putMember_cons value _ _ hother, ih hothers hrest]
      rfl

/-- **The record of members in order has the values that they give.** -/
theorem collect_of_given {fs : List (Field C)} (hnames : (fs.map (·.name)).Nodup)
    {members : List (String × Value)} {record : Record C fs}
    (h : Record.Given (fun s v x => value s v = .ok x) fs members record) :
    (members.foldlM (putMember value fs) (empty fs) >>= close fs) = .ok record := by
  rw [foldlM_putMember_of_given value hnames h]
  exact close_ofRecord fs record

end Slots

end AccessGraph.Json
