import AccessGraph.Text.Found
/-!
# TOML values

* `Toml.Value` : values. A table keeps its entries in the order in which they were defined.
* `Toml.Origin` : how a table was defined, which decides what may still be added to it.
* `Toml.Value.found` : what messages call a value.
* `Toml.put`, `Toml.openTable`, `Toml.openItem` : the effects of a pair, of a table header and of the
  header of a table in an array on the tables defined so far.
-/

namespace AccessGraph.Toml

/-- How a table was defined. -/
inductive Origin where
  /-- Between braces. -/
  | braces
  /-- By a dotted key. -/
  | dotted
  /-- By the header of a table inside of it. -/
  | implied
  /-- By a header of its own. -/
  | header
  deriving DecidableEq, Repr

/-- A value. -/
inductive Value where
  | string (text : String)
  | integer (value : Int)
  | float (value : Float)
  | boolean (value : Bool)
  | datetime
  | array (items : List Value)
  | table (origin : Origin) (entries : List (String × Value))
  /-- Tables that were defined one by one under the same header. -/
  | tables (items : List (List (String × Value)))
  deriving Inhabited

/-- The entries of a table, in the order of their definition. -/
abbrev Entries := List (String × Value)

/-- What messages call a value. -/
def Value.found : Value → Found
  | .string text => .string text
  | .integer value => .int value
  | .float value => .double value
  | .boolean value => .bool value
  | .datetime => .map
  | .array _ => .sequence
  | .table _ _ => .map
  | .tables _ => .sequence

/-- The value of a key. -/
def find? (entries : Entries) (key : String) : Option Value :=
  (entries.find? (·.1 = key)).map (·.2)

/-- Give a key that is present another value. -/
def replace (entries : Entries) (key : String) (v : Value) : Entries :=
  entries.map fun (k, w) => if k = key then (k, v) else (k, w)

/-- Add a pair to a table. The keys before the last one name tables inside of it, which are defined
thereby, were defined by dotted keys before, or lie between such a table and this one: implied tables
and the last table of an array. `nested` says that a table has been entered, `isDotted` that the
present one was defined by dotted keys. The last key has to be new. -/
def put (nested isDotted : Bool) (entries : Entries) : (path : List String) → Value → Option Entries
  | [], _ => none
  | [key], v =>
    if nested = isDotted ∧ (find? entries key).isNone then some (entries ++ [(key, v)]) else none
  | key :: path, v =>
    match find? entries key with
    | none => do some (entries ++ [(key, .table .dotted (← put true true [] path v))])
    | some (.table .dotted inner) => do
      some (replace entries key (.table .dotted (← put true true inner path v)))
    | some (.table .implied inner) => do
      some (replace entries key (.table .implied (← put true false inner path v)))
    | some (.tables items) => do
      let last ← items.getLast?
      some (replace entries key (.tables (items.dropLast ++ [← put true false last path v])))
    | some _ => none

/-- Change the table that a header names, entering the tables on the way to it. A table that is not
there yet is implied. -/
def enter (change : Entries → (key : String) → Option Entries) (entries : Entries) :
    (path : List String) → Option Entries
  | [] => none
  | [key] => change entries key
  | key :: path =>
    match find? entries key with
    | none => do some (entries ++ [(key, .table .implied (← enter change [] path))])
    | some (.table .braces _) => none
    | some (.table origin inner) => do
      some (replace entries key (.table origin (← enter change inner path)))
    | some (.tables items) => do
      let last ← items.getLast?
      some (replace entries key (.tables (items.dropLast ++ [← enter change last path])))
    | some _ => none

/-- Define a table by a header. It may have been implied, but not defined. -/
def openTable : Entries → (path : List String) → Option Entries :=
  enter fun entries key =>
    match find? entries key with
    | none => some (entries ++ [(key, .table .header [])])
    | some (.table .implied inner) =>
      some (entries.filter (·.1 ≠ key) ++ [(key, .table .header inner)])
    | some _ => none

/-- Define one more table of an array by a header. -/
def openItem : Entries → (path : List String) → Option Entries :=
  enter fun entries key =>
    match find? entries key with
    | none => some (entries ++ [(key, .tables [[]])])
    | some (.tables items) => some (replace entries key (.tables (items ++ [[]])))
    | some _ => none

/-- Add a pair to the table that the last header defined. -/
def putUnder (entries : Entries) (header path : List String) (v : Value) : Option Entries :=
  if header.isEmpty then put false false entries path v
  else
    enter (fun entries key =>
      match find? entries key with
      | some (.table origin inner) => do
        some (replace entries key (.table origin (← put false false inner path v)))
      | some (.tables items) => do
        let last ← items.getLast?
        some (replace entries key (.tables (items.dropLast ++ [← put false false last path v])))
      | _ => none) entries header

end AccessGraph.Toml
