import AccessGraph.Json.Fault
/-!
# Records

A record has fields of given names and shapes. In a text it is an object, whose members may come in
any order, or an array of the fields in their own order.

* `Json.Field` : a field, and what it is taken to be where it is absent.
* `Json.Record` : a value for each field, and `Json.Slots`, a value for some of the fields.
* `Json.Slots.put`, `Json.Slots.close` : a record is collected from members. A second member of one
  name is a fault; in the end the fields without a value take their defaults.
* `Json.Record.fromItems` : a record is collected from items.

The shapes are those of any family `C` of types. How a value of some shape is obtained is up to the
caller, who may read it from a text or find it in a value read before.
-/

namespace AccessGraph.Json

variable {σ : Type}

/-- A field of a record. -/
structure Field (C : σ → Type) where
  /-- The name of the member. -/
  name : String
  /-- What the field holds. -/
  shape : σ
  /-- What it holds where the member is absent; a field without default has to be present. -/
  default : Option (C shape)

/-- A value for each field. -/
def Record (C : σ → Type) : List (Field C) → Type
  | [] => Unit
  | f :: fs => C f.shape × Record C fs

/-- A value for some of the fields. -/
def Slots (C : σ → Type) : List (Field C) → Type
  | [] => Unit
  | f :: fs => Option (C f.shape) × Slots C fs

namespace Slots

variable {C : σ → Type}

/-- No field has a value. -/
def empty : (fs : List (Field C)) → Slots C fs
  | [] => ()
  | _ :: fs => (none, empty fs)

/-- The member of this name gives its field a value, obtained by `value`. A member that names no
field changes nothing. -/
def put {m : Type → Type} [Monad m] [MonadExceptOf Fault m] (name : String)
    (value : (s : σ) → m (C s)) : (fs : List (Field C)) → Slots C fs → m (Slots C fs)
  | [], slots => pure slots
  | f :: fs, (slot, slots) =>
    if f.name = name then
      match slot with
      | some _ => throw (.duplicateField name)
      | none => do
        let x ← value f.shape
        pure (some x, slots)
    else do
      let slots ← put name value fs slots
      pure (slot, slots)

/-- The record whose fields without a value take their defaults. -/
def close : (fs : List (Field C)) → Slots C fs → Except Fault (Record C fs)
  | [], _ => .ok ()
  | f :: fs, (slot, slots) =>
    match slot.or f.default with
    | none => .error (.missingField f.name)
    | some x => do
      let record ← close fs slots
      .ok (x, record)

end Slots

/-- A number of elements in words. -/
def elements (count : Nat) : String :=
  toString count ++ if count = 1 then " element" else " elements"

namespace Record

variable {C : σ → Type}

/-- The record whose fields are given by items one after the other. There are `before` fields
already, and `expected` says what the whole record is. Where the items end, the fields take their
defaults. -/
def fromItems {m : Type → Type} [Monad m] [MonadExceptOf Fault m]
    (next : (s : σ) → m (Option (C s))) (expected : String) :
    (fs : List (Field C)) → (before : Nat) → m (Record C fs)
  | [], _ => pure ()
  | f :: fs, before => do
    match (← next f.shape).or f.default with
    | none => throw (.invalidLength before expected)
    | some x =>
      let record ← fromItems next expected fs (before + 1)
      pure (x, record)

end Record

end AccessGraph.Json
