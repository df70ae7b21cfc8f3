import AccessGraph.Settings.Format
/-!
# Arguments of the command

* `Request` : what the arguments of the command ask for.
* `Command.Key` : the options that come with a value.
* `Command.Draft` : the arguments taken so far, none of which may be given twice.
* `Request.ofArguments?` : the request of a list of arguments, if they are understood.

The value of an option may follow it as an argument of its own, unless it looks like an option, or be
joined to it, as in `--format=dot`, `-f=dot` or `-fdot`.
-/

namespace AccessGraph

/-- What the arguments of the command ask for. -/
structure Request where
  /-- The path of the program. -/
  input : String
  /-- The path of the graph. -/
  output : String
  /-- The form of the graph. -/
  format : Option Format
  /-- The outline is asked for. -/
  dump : Bool
  /-- The path of the settings. -/
  config : Option String
  deriving DecidableEq, Repr

namespace Command

/-- An option that comes with a value. -/
inductive Key where
  | input
  | output
  | format
  | config
  deriving DecidableEq, Repr

namespace Key

/-- All options with a value. -/
def all : List Key := [.input, .output, .format, .config]

/-- The name of an option behind two dashes. -/
def long : Key → String
  | .input => "input"
  | .output => "output"
  | .format => "format"
  | .config => "config"

/-- The letter of an option behind one dash. -/
def short : Key → Char
  | .input => 'i'
  | .output => 'o'
  | .format => 'f'
  | .config => 'c'

/-- The option of a name. -/
def ofLong? (name : List Char) : Option Key := all.find? (·.long.toList = name)

/-- The option of a letter. -/
def ofShort? (letter : Char) : Option Key := all.find? (·.short = letter)

end Key

/-- Split an argument into an option and the value that is joined to it, if there is one. -/
def splitArgument? : List Char → Option (Key × Option String)
  | '-' :: '-' :: name =>
    match name.span (· ≠ '=') with
    | (name, '=' :: value) => (Key.ofLong? name).map (·, some (String.ofList value))
    | (name, _) => (Key.ofLong? name).map (·, none)
  | '-' :: letter :: rest =>
    (Key.ofShort? letter).map fun key =>
      match rest with
      | [] => (key, none)
      | '=' :: value => (key, some (String.ofList value))
      | value => (key, some (String.ofList value))
  | _ => none

/-- An argument can be the value of the option before it. A single dash can. -/
def isValue (argument : String) : Bool :=
  match argument.toList with
  | '-' :: _ :: _ => false
  | _ => true

/-- The arguments taken so far. -/
structure Draft where
  input : Option String
  output : Option String
  format : Option Format
  dump : Bool
  config : Option String

namespace Draft

/-- No arguments have been taken. -/
def empty : Draft := ⟨none, none, none, false, none⟩

/-- Give an option its value, for the first time. -/
def set? (d : Draft) (key : Key) (value : String) : Option Draft :=
  match key with
  | .input => if d.input.isNone then some { d with input := some value } else none
  | .output => if d.output.isNone then some { d with output := some value } else none
  | .config => if d.config.isNone then some { d with config := some value } else none
  | .format =>
    match Format.ofName? value with
    | some f => if d.format.isNone then some { d with format := some f } else none
    | none => none

/-- Ask for the outline, for the first time. -/
def setDump? (d : Draft) : Option Draft := if d.dump then none else some { d with dump := true }

/-- The request, if it is complete. -/
def request? (d : Draft) : Option Request := do
  some { d with input := ← d.input, output := ← d.output }

end Draft

/-- Take the remaining arguments. Nothing may follow two dashes alone. -/
def takeArguments? (d : Draft) : (arguments : List String) → Option Draft
  | [] => some d
  | ["--"] => some d
  | "--dump" :: rest => do takeArguments? (← d.setDump?) rest
  | argument :: rest =>
    match splitArgument? argument.toList, rest with
    | some (key, some value), rest => do takeArguments? (← d.set? key value) rest
    | some (key, none), value :: rest =>
      if isValue value then do takeArguments? (← d.set? key value) rest else none
    | _, _ => none

end Command

/-- The request of a list of arguments, if they are understood. -/
def Request.ofArguments? (arguments : List String) : Option Request := do
  (← Command.takeArguments? .empty arguments).request?

end AccessGraph
