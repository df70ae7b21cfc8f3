import AccessGraph.Json.Reader
import AccessGraph.Json.Record
/-!
# Values of several variants

A type with several variants is written as a record that carries the name of its variant, the tag: an
object has a member `kind` anywhere among its members, and an array has the tag as its first item.

* `Json.Variant` : a variant with its fields, and `Json.Choice`, a type with several of them.
* `Json.Tagged` : a value whose variant is known and whose fields are still to be decoded.
* `Json.Tagged.ofValue` : the variant of a value read before. Its tag may also be the position of
  the variant.
* `Json.Tagged.read` : the variant of the value that a text starts with. The tag is checked as soon as
  it is read, before the rest of the text.
* `Json.Tagged.decode` : the value that the fields make up.
-/

namespace AccessGraph.Json

variable {σ : Type} {C : σ → Type} {α : Type}

/-- One of several variants of a type. -/
structure Variant (C : σ → Type) (α : Type) where
  /-- Its tag. -/
  name : String
  /-- What messages call it. -/
  title : String
  /-- Its fields. -/
  fields : List (Field C)
  /-- The value that its fields make up. -/
  build : Record C fields → α

/-- A type with several variants. -/
structure Choice (C : σ → Type) (α : Type) where
  /-- What messages call the type. -/
  title : String
  /-- The variants, in order. -/
  variants : List (Variant C α)

/-- The name of the member that holds the tag. -/
def tagName : String := "kind"

/-- What messages call a tag. -/
def tagTitle : String := "variant identifier"

namespace Choice

/-- The variant of a name. -/
def named (choice : Choice C α) (name : String) : Except Fault (Variant C α) :=
  match choice.variants.find? (·.name = name) with
  | some variant => .ok variant
  | none => .error (.unknownVariant name (choice.variants.map (·.name)))

/-- The variant at a position. -/
def numbered (choice : Choice C α) (n : Nat) : Except Fault (Variant C α) :=
  match choice.variants[n]? with
  | some variant => .ok variant
  | none =>
    .error (.invalidValue (.int n)
      ("variant index 0 <= i < " ++ toString choice.variants.length))

/-- The variant that a value names, by its name or its position. -/
def ofTag (choice : Choice C α) : Value → Except Fault (Variant C α)
  | .string name => choice.named name
  | .number (.int (.ofNat n)) => choice.numbered n
  | v => .error (.invalidType (.ofValue v) tagTitle)

/-- Read the name of a variant. -/
def readTag (choice : Choice C α) (cs : List Char) : Except Fault (Variant C α × List Char) :=
  match skipBlanks cs with
  | [] => .error (.endOfText .value)
  | c :: cs =>
    if c = '"' then do
      let (name, rest) ← readString cs
      .ok (← choice.named name, rest)
    else .error (wrongType tagTitle (c :: cs))

end Choice

/-- What a value holds besides its tag. -/
inductive Body where
  | items (items : List Value)
  | members (members : List (String × Value))

/-- A value whose variant is known. -/
structure Tagged (C : σ → Type) (α : Type) where
  /-- Its variant. -/
  variant : Variant C α
  /-- Its fields. -/
  body : Body

namespace Tagged

/-- Collect the members of an object, the tag apart, after those collected so far, which are given last
one first. -/
def ofMembers (choice : Choice C α) :
    (tag : Option (Variant C α)) → (before : List (String × Value)) → List (String × Value) →
    Except Fault (Tagged C α)
  | none, _, [] => .error (.missingField tagName)
  | some variant, before, [] => .ok ⟨variant, .members before.reverse⟩
  | tag, before, (name, v) :: members =>
    if name = tagName then
      match tag with
      | some _ => .error (.duplicateField tagName)
      | none => do ofMembers choice (some (← choice.ofTag v)) before members
    else ofMembers choice tag ((name, v) :: before) members

/-- The variant of a value read before. -/
def ofValue (choice : Choice C α) : Value → Except Fault (Tagged C α)
  | .array [] => .error (.missingField tagName)
  | .array (tag :: items) => do .ok ⟨← choice.ofTag tag, .items items⟩
  | .object members => ofMembers choice none [] members
  | v => .error (.invalidType (.ofValue v) choice.title)

/-- Read the remaining members of an object, after those read so far, which are given last one
first. -/
def readMembers (choice : Choice C α) (value : List Char → Except Fault (Value × List Char)) :
    (fuel : Nat) → (first : Bool) → (tag : Option (Variant C α)) →
    (before : List (String × Value)) → List Char → Except Fault (Tagged C α × List Char)
  | 0, _, _, _, _ => .error (.endOfText .object)
  | fuel + 1, first, tag, before, cs => do
    match ← nextKey first cs with
    | (none, rest) =>
      match tag with
      | none => .error (.missingField tagName)
      | some variant => .ok (⟨variant, .members before.reverse⟩, rest)
    | (some name, cs) =>
      if name = tagName then
        match tag with
        | some _ => .error (.duplicateField tagName)
        | none =>
          let (variant, rest) ← choice.readTag (← readColon cs)
          readMembers choice value fuel false (some variant) before rest
      else
        let (v, rest) ← value (← readColon cs)
        readMembers choice value fuel false tag ((name, v) :: before) rest

/-- Read a value with its tag. -/
def read (choice : Choice C α) (fuel : Nat) (cs : List Char) :
    Except Fault (Tagged C α × List Char) :=
  match skipBlanks cs with
  | [] => .error (.endOfText .value)
  | c :: cs =>
    if c = '[' then do
      match ← nextItem true cs with
      | (false, _) => .error (.missingField tagName)
      | (true, cs) =>
        let (variant, cs) ← choice.readTag cs
        let (items, rest) ← readItems (readValue fuel (nestingLimit - 1)) fuel false [] cs
        .ok (⟨variant, .items items⟩, rest)
    else if c = '\x7b' then readMembers choice (readValue fuel (nestingLimit - 1)) fuel true none [] cs
    else .error (wrongType choice.title (c :: cs))

/-- What messages call a variant with its fields. -/
def expected (variant : Variant C α) : String :=
  variant.title ++ " with " ++ elements variant.fields.length

/-- Decode the next of some items, if there is one. -/
def nextValue (value : (s : σ) → Value → Except Fault (C s)) (s : σ) :
    StateT (List Value) (Except Fault) (Option (C s))
  | [] => .ok (none, [])
  | v :: items => do .ok (some (← value s v), items)

/-- The value that the fields make up. They are decoded in the order of the text, by `value`. -/
def decode (value : (s : σ) → Value → Except Fault (C s)) (t : Tagged C α) : Except Fault α := do
  let fields := t.variant.fields
  match t.body with
  | .members members =>
    let slots ← members.foldlM
      (fun slots (name, v) => Slots.put name (value · v) fields slots) (Slots.empty fields)
    .ok (t.variant.build (← Slots.close fields slots))
  | .items items =>
    let (record, rest) ← Record.fromItems (nextValue value) (expected t.variant) fields 0 items
    if rest.isEmpty then .ok (t.variant.build record)
    else .error (.invalidLength items.length (elements fields.length ++ " in sequence"))

end Tagged

end AccessGraph.Json
