import AccessGraph.Files
/-!
# Paths

A path leads from the root, or from the working directory, through directories and symbolic links to a
file, a device, or a name that is not taken.

* `FileSystem` : all that there is around the files, and what the system makes of their use.
* `FileSystem.Place` : where a path can lead.
* `FileSystem.walk` : follow the names of a path up to the next link.
* `FileSystem.locate` : where a path leads.
* `FileSystem.read`, `FileSystem.readText`, `FileSystem.write` : read the file that a path leads to and
  write it, or say why not. A write that fails may have begun.
-/

namespace AccessGraph

open Files (Fault names)

/-- What a file is opened for. -/
inductive Access where
  | reading
  | writing
  deriving DecidableEq, Repr

/-- A device. What is written to it is gone. -/
structure Device where
  /-- What is read from it. -/
  content : Except Fault (List UInt8)
  /-- Why it takes nothing, if that is so. -/
  refusal : Option Fault

/-- All that there is around the files, which stays as it is. Places are given by the names on the way
from the root. -/
structure FileSystem where
  /-- Where paths start that have no slash in front. It is a directory. -/
  workingDirectory : List String
  /-- Directories that are there whether files are in them or not. -/
  directories : List (List String)
  /-- Symbolic links with the paths that they stand for. A file with several names is at one of them,
  and the others are links to it. -/
  links : List (List String × String)
  /-- Devices. -/
  devices : List (List String × Device)
  /-- Why a file may not be opened, or a new one not be made in a place. -/
  refusal : Access → List String → Option Fault
  /-- After how many bytes the writing of some content breaks off, and why. -/
  cut : List String → List UInt8 → Option (Nat × Fault)

namespace FileSystem

/-- The root is the working directory, there are two devices, and nothing is refused or cut off. -/
def plain : FileSystem where
  workingDirectory := []
  directories := [["dev"]]
  links := []
  devices := [(["dev", "null"], ⟨.ok [], none⟩), (["dev", "full"], ⟨.ok [], some .noSpace⟩)]
  refusal _ _ := none
  cut _ _ := none

/-- Where a path can lead. -/
inductive Place where
  /-- To a file. -/
  | file (place : List String) (content : List UInt8)
  /-- To a name that is not taken, in a directory that is there. -/
  | free (place : List String)
  /-- To a device. -/
  | device (device : Device)
  /-- To a directory. -/
  | directory
  /-- To a name with a slash behind it that is not the name of a directory, so that it cannot be
  read for the given reason. -/
  | slashed (fault : Fault)
  /-- Nowhere, for the given reason. -/
  | nowhere (fault : Fault)

/-- How far the names of a path lead. -/
inductive Step where
  /-- To the end. -/
  | arrived (place : Place)
  /-- To a link. There are other names to follow from a place on. -/
  | linked (here : List String) (names : List String)

/-- The greatest length of a name, in bytes. -/
def maxNameLength : Nat := 255

/-- The length that paths stay below, in bytes. -/
def pathLimit : Nat := 4096

/-- How many links a path may lead through. -/
def maxLinks : Nat := 40

/-- Where a path starts that is met in some place. -/
def start (here : List String) (path : String) : List String :=
  if path.toList.head? = some '/' then [] else here

/-- Where a path leads at a name that is not the name of a directory: to the place of that name if
the path ends there, and otherwise nowhere for the given reason. -/
def stopAt (place : Place) (fault : Fault) (rest : List String) : Step :=
  .arrived (if rest.isEmpty then place else if rest.all (· = "") then .slashed fault else .nowhere fault)

variable (system : FileSystem) (files : Files)

/-- A place is that of a directory. -/
def isDirectory (place : List String) : Bool :=
  files.isDirectory place ||
    (system.workingDirectory :: system.directories).any (place.isPrefixOf ·)

/-- Follow names from a directory on. -/
def walk (here : List String) : (names : List String) → Step
  | [] => .arrived .directory
  | name :: rest =>
    if name = "" ∨ name = "." then walk here rest
    else if name = ".." then walk here.dropLast rest
    else if maxNameLength < name.utf8ByteSize then stopAt (.nowhere .nameTooLong) .nameTooLong rest
    else
      let next := here ++ [name]
      -- links come first, since a file with several names has the others as links
      match system.links.lookup next with
      | some path => .linked (start here path) (names path ++ rest)
      | none =>
        match files.find? next with
        | some content => stopAt (.file next content) .notDirectory rest
        | none =>
          match system.devices.lookup next with
          | some device => stopAt (.device device) .notDirectory rest
          | none =>
            if system.isDirectory files next then walk next rest
            else stopAt (.free next) .notFound rest

/-- Go on at links, as long as there are not too many. -/
def follow : (links : Nat) → Step → Place
  | _, .arrived place => place
  | 0, .linked _ _ => .nowhere .tooManyLinks
  | links + 1, .linked here names => follow links (system.walk files here names)

/-- Where a path leads. -/
def locate (path : String) : Place :=
  if path.isEmpty then .nowhere .notFound
  else if pathLimit ≤ path.utf8ByteSize then .nowhere .nameTooLong
  else
    system.follow files maxLinks
      (system.walk files (start system.workingDirectory path) (names path))

/-- A place as far as it may be used. -/
def allowed (access : Access) (place : Place) : Place :=
  match place with
  | .file p _ | .free p => (system.refusal access p).elim place .nowhere
  | place => place

/-- The content of the file that a path leads to. -/
def read (path : String) : Except Fault (List UInt8) :=
  match system.allowed .reading (system.locate files path) with
  | .file _ content => .ok content
  | .device device => device.content
  | .free _ => .error .notFound
  | .directory => .error .isDirectory
  | .slashed fault | .nowhere fault => .error fault

/-- The text of the file that a path leads to. -/
def readText (path : String) : Except Fault String := do
  Files.textOf (← system.read files path)

/-- Write the file that a path leads to. Its old content is lost as soon as it has been opened, and
what has been written stays if the rest cannot be written. -/
def write (path : String) (content : List UInt8) : Files × Except Fault Unit :=
  match system.allowed .writing (system.locate files path) with
  | .file place _ | .free place =>
    match system.cut place content with
    | none => (files.put place content, .ok ())
    | some (count, fault) => (files.put place (content.take count), .error fault)
  | .device ⟨_, none⟩ => (files, .ok ())
  | .device ⟨_, some fault⟩ | .nowhere fault => (files, .error fault)
  | .directory | .slashed _ => (files, .error .isDirectory)

end FileSystem

end AccessGraph
