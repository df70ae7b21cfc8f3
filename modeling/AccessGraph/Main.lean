import AccessGraph.Command.Run
/-!
# The command

`main` reads the files that the arguments name and the variable with the filter for log messages, prints
what the run prints, and writes the output.
-/

namespace AccessGraph.Command

/-- What the system says when a file cannot be read or written. -/
def faultOf : IO.Error → Files.Fault
  | .noFileOrDirectory _ _ _ => .notFound
  | .inappropriateType _ code _ => if code = 20 then .notDirectory else .isDirectory
  | .invalidArgument _ code details =>
    if code = 36 then .nameTooLong
    else if code = 40 then .tooManyLinks
    else numbered code details
  | .resourceExhausted _ code details => if code = 28 then .noSpace else numbered code details
  | .permissionDenied _ code details => numbered code details
  | e => .other (toString e)
where
  /-- A fault that is known by its number. -/
  numbered (code : UInt32) (details : String) : Files.Fault :=
    .other (details ++ " (os error " ++ toString code ++ ")")

/-- Read a text from a file. -/
def readFile (path : String) : IO (Except Files.Fault String) := do
  try
    let content ← IO.FS.readBinFile path
    return Files.textOf content.data.toList
  catch e => return .error (faultOf e)

/-- Write a file. -/
def writeFile (path : String) (content : List UInt8) : IO (Except Files.Fault Unit) := do
  try
    IO.FS.withFile path .write fun file => do
      file.write ⟨content.toArray⟩
      file.flush
    return .ok ()
  catch e => return .error (faultOf e)

/-- Read the files that a request names. -/
def readFiles (r : Request) : IO (String → Except Files.Fault String) := do
  let texts ← (r.config.toList ++ [r.input]).mapM fun path => return (path, ← readFile path)
  return fun path => (texts.lookup path).getD (.error .notFound)

/-- Say that a run has ended in some way. -/
def finish (ending : Ending) : IO UInt32 := do
  match ending with
  | .completed => pure ()
  | .failed failure => IO.eprintln failure.report
  | .aborted => IO.eprintln "broken off"
  | .misused => IO.eprintln "usage: -i PATH -o PATH [-f binary|json|dot] [--dump] [-c PATH]"
  return ending.status.toUInt32

/-- Carry out a request. -/
def carryOut (r : Request) : IO UInt32 := do
  match r.prepare (← IO.getEnv "RUST_LOG") (← readFiles r) with
  | .error failure => finish (.ofFailure failure)
  | .ok work =>
    IO.print work.outline
    match ← writeFile r.output work.content with
    | .error fault => finish (.failed (.output fault))
    | .ok () =>
      IO.print work.completion
      finish .completed

end AccessGraph.Command

/-- Run the command. -/
def main (arguments : List String) : IO UInt32 :=
  match AccessGraph.Request.ofArguments? arguments with
  | none => AccessGraph.Command.finish .misused
  | some r => AccessGraph.Command.carryOut r
