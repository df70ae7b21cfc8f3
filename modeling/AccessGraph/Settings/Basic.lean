import AccessGraph.Settings.Format
import AccessGraph.Toml.Reader
/-!
# Settings

Settings are read from a TOML document with up to three keys, none of which has to be present.

* `Settings` : what can be set, with defaults.
* `Settings.Fault` : the reasons to refuse a document.
* `Settings.set` : the effect of one entry.
* `Settings.ofToml`, `Settings.ofText` : the settings of a document. Its entries take effect in their
  order, so the first faulty one is reported.
-/

namespace AccessGraph

/-- What can be set for a run. -/
structure Settings where
  /-- The outline is printed. -/
  dump : Bool
  /-- The form in which the graph is written. -/
  format : Format
  /-- Which log messages are shown. -/
  logFilter : String
  deriving DecidableEq, Repr

namespace Settings

/-- The settings where nothing is set. -/
def default : Settings := ⟨false, .binary, "info"⟩

/-- A reason to refuse a document. -/
inductive Fault where
  /-- It is not written in TOML. -/
  | notToml
  /-- A key is none of the three. -/
  | unknownKey (key : String)
  /-- A value has the wrong type. -/
  | wrongType (found : Found) (expected : String)
  /-- The name of a format is none of the known ones. -/
  | unknownFormat (name : String)
  /-- A format is given by something that is not a name. -/
  | formatNotName

/-- The keys of a document. -/
def keys : List String := ["dump", "format", "log_filter"]

/-- The wording of a reason. Doubles are shown in positional form. -/
def Fault.message : Fault → String
  | .notToml => "invalid document"
  | .unknownKey key =>
    "unknown field " ++ Text.cite key ++ ", expected one of " ++
      ", ".intercalate (keys.map Text.cite)
  | .wrongType found expected =>
    "invalid type: " ++ found.describe .plain ++ ", expected " ++ expected
  | .unknownFormat name =>
    "unknown variant " ++ Text.cite name ++ ", expected one of " ++
      ", ".intercalate (Format.all.map (Text.cite ·.name))
  | .formatNotName => "wanted string or table"

/-- The format of a name. -/
def formatNamed (name : String) : Except Fault Format :=
  match Format.ofName? name with
  | some f => .ok f
  | none => .error (.unknownFormat name)

/-- The format of a key with a value that says no more than the key. -/
def formatKeyed : Toml.Entries → Except Fault Format
  | [(name, v)] => do
    let f ← formatNamed name
    match v with
    | .array [] | .table _ [] | .tables [] => .ok f
    | _ => .error .formatNotName
  | _ => .error .formatNotName

/-- The format that a value stands for: a name, or a table whose only key is the name. -/
def formatOf : Toml.Value → Except Fault Format
  | .string name => formatNamed name
  | .table _ entries => formatKeyed entries
  | _ => .error .formatNotName

/-- The effect of an entry. -/
def set (s : Settings) : String × Toml.Value → Except Fault Settings
  | (key, v) =>
    if key = "dump" then
      match v with
      | .boolean dump => .ok { s with dump }
      | v => .error (.wrongType v.found "a boolean")
    else if key = "format" then do
      .ok { s with format := ← formatOf v }
    else if key = "log_filter" then
      match v with
      | .string logFilter => .ok { s with logFilter }
      | v => .error (.wrongType v.found "a string")
    else .error (.unknownKey key)

/-- The settings of the entries of a document. -/
def ofToml (entries : Toml.Entries) : Except Fault Settings := entries.foldlM set default

/-- The settings of a document. -/
def ofText (text : String) : Except Fault Settings :=
  match Toml.ofText? text with
  | some entries => ofToml entries
  | none => .error .notToml

end Settings

end AccessGraph
