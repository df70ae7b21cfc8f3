import AccessGraph.Decimal.Double
import AccessGraph.Text.Quoted
/-!
# What a message calls a value

When a text holds one thing where another is expected, the message names what it holds.

* `Found` : what stands in the text.
* `Found.describe` : its wording. Only small values are shown.
-/

namespace AccessGraph

/-- What stands in a text where something else is expected. -/
inductive Found where
  | null
  | bool (value : Bool)
  | int (value : Int)
  | double (value : Float)
  | string (text : String)
  | sequence
  | map

/-- The wording of what is found, with doubles in the given style. -/
def Found.describe (style : DoubleStyle) : Found → String
  | .null => "null"
  | .bool value => "boolean " ++ Text.cite (if value then "true" else "false")
  | .int value => "integer " ++ Text.cite (toString value)
  | .double value => "floating point " ++ Text.cite (style.write value)
  | .string text => "string " ++ Text.quote text
  | .sequence => "sequence"
  | .map => "map"

end AccessGraph
