/-!
# Output formats

* `Format` : the forms in which a graph can be written.
* `Format.name`, `Format.title` : their names, for those who choose one and in reports.
* `Format.ofName?` : the format of a name.
-/

namespace AccessGraph

/-- A form in which a graph can be written. -/
inductive Format where
  /-- The buffer. -/
  | binary
  /-- The listing as JSON. -/
  | json
  /-- The drawing for Graphviz. -/
  | dot
  deriving DecidableEq, Repr

namespace Format

/-- The name by which a format is chosen. -/
def name : Format → String
  | .binary => "binary"
  | .json => "json"
  | .dot => "dot"

/-- The name of a format in reports. -/
def title : Format → String
  | .binary => "Binary"
  | .json => "Json"
  | .dot => "Dot"

/-- All formats. -/
def all : List Format := [.binary, .json, .dot]

/-- The format of a name. -/
def ofName? (name : String) : Option Format := all.find? (·.name = name)

end Format

end AccessGraph
