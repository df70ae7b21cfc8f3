/-!
# Files

* `Files` : files with their contents.
* `Files.Fault` : why a file cannot be read or written.
* `Files.find?`, `Files.put` : the content of a file, and a file given some content.
* `Files.textOf` : the text of some content.
* `Files.names` : the names of a path.
* `Files.changesFrom` : the files that differ from those of another state.
-/

namespace AccessGraph

/-- Files with their contents. The place of a file is given by the names on the way to it from the
root. -/
structure Files where
  /-- The files with their contents, in bytes. -/
  entries : List (List String × List UInt8)
  deriving DecidableEq, Repr

namespace Files

/-- Why a file cannot be read or written. -/
inductive Fault where
  /-- Nothing is there. -/
  | notFound
  /-- The path passes through a file. -/
  | notDirectory
  /-- A directory is there, or wanted there. -/
  | isDirectory
  /-- The path, or a name of it, is too long. -/
  | nameTooLong
  /-- The path leads through too many links. -/
  | tooManyLinks
  /-- There is no room for the content. -/
  | noSpace
  /-- The content is not text in UTF-8. -/
  | notText
  /-- Anything else, with its wording. -/
  | other (message : String)
  deriving DecidableEq, Repr

/-- The wording of a fault. -/
def Fault.message : Fault → String
  | .notFound => "No such file or directory (os error 2)"
  | .notDirectory => "Not a directory (os error 20)"
  | .isDirectory => "Is a directory (os error 21)"
  | .nameTooLong => "File name too long (os error 36)"
  | .tooManyLinks => "Too many levels of symbolic links (os error 40)"
  | .noSpace => "No space left on device (os error 28)"
  | .notText => "stream did not contain valid UTF-8"
  | .other message => message

/-- The content of a file. -/
def find? (files : Files) (place : List String) : Option (List UInt8) :=
  (files.entries.find? (·.1 = place)).map (·.2)

/-- Give a file some content, whether it has been there or not. -/
def put (files : Files) (place : List String) (content : List UInt8) : Files :=
  if (files.find? place).isSome then
    ⟨files.entries.map fun (p, old) => if p = place then (p, content) else (p, old)⟩
  else ⟨files.entries ++ [(place, content)]⟩

/-- A place is that of a directory with files in it. -/
def isDirectory (files : Files) (place : List String) : Bool :=
  files.entries.any fun (p, _) => place.isPrefixOf p && place ≠ p

/-- Bytes as text. -/
def textOf (content : List UInt8) : Except Fault String :=
  match String.fromUTF8? ⟨content.toArray⟩ with
  | some text => .ok text
  | none => .error .notText

/-- The names of a path, with an empty one before a slash that begins or ends the path. -/
def names (path : String) : List String := (path.toList.splitOn '/').map String.ofList

/-- The files that have not been there before, or not with that content. -/
def changesFrom (after before : Files) : List (List String × List UInt8) :=
  after.entries.filter fun (place, content) => before.find? place ≠ some content

end Files

end AccessGraph
