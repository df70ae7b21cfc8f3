import AccessGraph.Json.Value
import AccessGraph.Text.Found
/-!
# Why a text is refused

* `Found.ofNumber`, `Found.ofValue` : what messages call a number and a value.
* `Json.Fault` : the reasons to refuse a text, first those of its syntax, then those of its content.
* `Json.Fault.message` : the wording of a reason.
-/

namespace AccessGraph

namespace Found

/-- What a number is called. -/
def ofNumber : Json.Number → Found
  | .int value => .int value
  | .double value => .double value

/-- What a value is called. -/
def ofValue : Json.Value → Found
  | .null => .null
  | .bool value => .bool value
  | .number value => .ofNumber value
  | .string text => .string text
  | .array _ => .sequence
  | .object _ => .map

end Found

namespace Json

/-- What is being read when a text ends too early. -/
inductive Place where
  | value
  | list
  | object
  | string
  deriving DecidableEq, Repr

/-- A reason to refuse a text. -/
inductive Fault where
  /-- The text ends in the middle of something. -/
  | endOfText (within : Place)
  /-- No value starts here. -/
  | expectedValue
  /-- One of the three words of JSON is misspelt. -/
  | expectedWord
  | invalidNumber
  /-- A number is too large for a double. -/
  | numberOutOfRange
  | expectedColon
  | expectedItemEnd
  | expectedMemberEnd
  | keyNotString
  | trailingComma
  | invalidEscape
  /-- The first half of a surrogate pair is not followed by an escape. -/
  | halfPair
  /-- A surrogate has no partner. -/
  | loneSurrogate
  | controlCharacter
  /-- Arrays and objects lie too deep inside each other. -/
  | tooDeep
  /-- Something follows the value. -/
  | trailingText
  /-- Something has the wrong type. -/
  | invalidType (found : Found) (expected : String)
  /-- Something has the right type, but a value outside the range. -/
  | invalidValue (found : Found) (expected : String)
  /-- A list has too few or too many items. -/
  | invalidLength (length : Nat) (expected : String)
  | missingField (name : String)
  | duplicateField (name : String)
  /-- A name is none of the known ones. -/
  | unknownVariant (name : String) (known : List String)

namespace Fault

/-- The wording of a choice among names. -/
def choice : List String → String
  | [] => "there are no variants"
  | [a] => "expected " ++ Text.cite a
  | [a, b] => "expected " ++ Text.cite a ++ " or " ++ Text.cite b
  | names => "expected one of " ++ ", ".intercalate (names.map Text.cite)

/-- The wording of a reason. -/
def message : Fault → String
  | .endOfText .value => "EOF while parsing a value"
  | .endOfText .list => "EOF while parsing a list"
  | .endOfText .object => "EOF while parsing an object"
  | .endOfText .string => "EOF while parsing a string"
  | .expectedValue => "expected value"
  | .expectedWord => "expected ident"
  | .invalidNumber => "invalid number"
  | .numberOutOfRange => "number out of range"
  | .expectedColon => "expected " ++ Text.cite ":"
  | .expectedItemEnd => "expected " ++ Text.cite "," ++ " or " ++ Text.cite "]"
  | .expectedMemberEnd => "expected " ++ Text.cite "," ++ " or " ++ Text.cite "\x7d"
  | .keyNotString => "key must be a string"
  | .trailingComma => "trailing comma"
  | .invalidEscape => "invalid escape"
  | .halfPair => "unexpected end of hex escape"
  | .loneSurrogate => "lone leading surrogate in hex escape"
  | .controlCharacter =>
    "control character (\\u0000-\\u001F) found while parsing a string"
  | .tooDeep => "recursion limit exceeded"
  | .trailingText => "trailing characters"
  | .invalidType found expected =>
    "invalid type: " ++ found.describe .compact ++ ", expected " ++ expected
  | .invalidValue found expected =>
    "invalid value: " ++ found.describe .compact ++ ", expected " ++ expected
  | .invalidLength length expected =>
    "invalid length " ++ toString length ++ ", expected " ++ expected
  | .missingField name => "missing field " ++ Text.cite name
  | .duplicateField name => "duplicate field " ++ Text.cite name
  | .unknownVariant name known =>
    "unknown variant " ++ Text.cite name ++ ", " ++ choice known

end Fault

end Json

end AccessGraph
