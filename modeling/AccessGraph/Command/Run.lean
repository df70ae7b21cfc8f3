import AccessGraph.Buffer.Write
import AccessGraph.Command.Arguments
import AccessGraph.Command.Failure
import AccessGraph.FileSystem
import AccessGraph.Program.Decode
import AccessGraph.Render.Dot
import AccessGraph.Render.Listing
/-!
# Runs of the command

A run reads the settings and the program, extracts the graph and writes it.

* `Format.render` : the content of the output file.
* `Request.settings` : the settings of a run, from the file of settings and the arguments.
* `Request.checkFilter` : the check of the filter for log messages.
* `Request.prepare` : all that a run does up to the writing of the output.
* `Command.Surroundings` : what a run finds besides its arguments and the files.
* `Command.run` : the effect of a run on files, and what it prints.

What a run prints can always be printed, and no path leads to where it is printed.
-/

namespace AccessGraph

/-- The content of the file that a graph is written to. -/
def Format.render (x : Extraction) : Format → List UInt8
  | .binary => x.buffer
  | .json => utf8Bytes (Listing.ofTable x.table).toJson.pretty
  | .dot => utf8Bytes x.table.dot

/-- What a run does once everything has been read. -/
structure Command.Work where
  /-- What is printed before the output is written. -/
  outline : String
  /-- The content of the output. -/
  content : List UInt8
  /-- What is printed after the output has been written. -/
  completion : String
  deriving DecidableEq, Repr

namespace Request

/-- The settings of a file, or the default ones if there is none. -/
def configured (read : String → Except Files.Fault String) (r : Request) :
    Except Command.Failure Settings :=
  match r.config with
  | none => .ok .default
  | some path => do
    let text ← (read path).mapError (.configUnread path)
    (Settings.ofText text).mapError (.configRefused path)

/-- The settings of a run. The format of the arguments prevails, and the outline is printed if it is
asked for in either place. -/
def settings (read : String → Except Files.Fault String) (r : Request) :
    Except Command.Failure Settings := do
  let s ← r.configured read
  .ok { s with format := r.format.getD s.format, dump := s.dump || r.dump }

/-- Check the filter of the settings. -/
def checkFallback (filter : String) : Except Command.Failure Unit :=
  match LogFilter.fault? filter with
  | some fault => .error (.logFilter filter fault)
  | none => .ok ()

/-- Check the filter for log messages. One that is given from outside prevails over that of the
settings, unless it is faulty. -/
def checkFilter (given : Option String) (filter : String) : Except Command.Failure Unit :=
  match given with
  | none => checkFallback filter
  | some text =>
    match LogFilter.fault? text with
    | none => .ok ()
    | some .cut => .error (.logFilter text .cut)
    | some _ => checkFallback filter

/-- The extraction of the program in a file. -/
def extraction (read : String → Except Files.Fault String) (r : Request) :
    Except Command.Failure Extraction := do
  let text ← (read r.input).mapError (.inputUnread r.input)
  let program ← (Stmt.ofJson text).mapError (.inputRefused r.input)
  program.extract.mapError .extraction

/-- What is printed in the end. -/
def completion (r : Request) (format : Format) (x : Extraction) : String :=
  "Extraction completed! " ++ toString x.table.count ++ " nodes, output written to " ++ r.output ++
    " (format: " ++ format.title ++ ")\n"

/-- All that a run does up to the writing of the output, given a filter for log messages, if there is
one, and how to read a file: the settings come first, then the filter, and then the program. -/
def prepare (logFilter : Option String) (read : String → Except Files.Fault String) (r : Request) :
    Except Command.Failure Command.Work := do
  let s ← r.settings read
  checkFilter logFilter s.logFilter
  let x ← r.extraction read
  .ok {
    outline := if s.dump then x.outline else ""
    content := s.format.render x
    completion := r.completion s.format x }

end Request

namespace Command

/-- How a run ends. -/
inductive Ending where
  /-- The output has been written. -/
  | completed
  /-- The run has failed. -/
  | failed (failure : Failure)
  /-- The run has broken off without a report. -/
  | aborted
  /-- The arguments have not been understood. -/
  | misused

/-- The number by which the end of a run is known outside. -/
def Ending.status : Ending → Nat
  | completed => 0
  | failed _ => 1
  | misused => 2
  | aborted => 101

/-- How a run ends that fails. A log filter that cannot be taken apart breaks it off. -/
def Ending.ofFailure : Failure → Ending
  | .logFilter _ .cut => aborted
  | failure => failed failure

/-- What is left after a run. -/
structure Outcome where
  /-- How the run has ended. -/
  ending : Ending
  /-- What has been printed. -/
  printed : String
  /-- The files. -/
  files : Files

/-- What a run finds besides its arguments and the files. -/
structure Surroundings where
  /-- What there is around the files. -/
  system : FileSystem
  /-- The filter for log messages that is given from outside, if there is one. -/
  logFilter : Option String

/-- The effect of a request on files. -/
def perform (around : Surroundings) (files : Files) (r : Request) : Outcome :=
  match r.prepare around.logFilter (around.system.readText files) with
  | .error failure => ⟨.ofFailure failure, "", files⟩
  | .ok work =>
    match around.system.write files r.output work.content with
    | (after, .error fault) => ⟨.failed (.output fault), work.outline, after⟩
    | (after, .ok ()) => ⟨.completed, work.outline ++ work.completion, after⟩

/-- The effect of a run with some arguments on files. -/
def run (files : Files) (arguments : List String) (around : Surroundings) : Outcome :=
  match Request.ofArguments? arguments with
  | none => ⟨.misused, "", files⟩
  | some r => perform around files r

end Command

end AccessGraph
