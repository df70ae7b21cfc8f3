import AccessGraph.Extraction
import AccessGraph.Files
import AccessGraph.Json.Fault
import AccessGraph.Settings.Basic
import AccessGraph.Settings.LogFilter
/-!
# Failures of the command

* `Command.Failure` : why a run of the command can fail.
* `Command.Failure.chain` : what is reported, followed by its causes.
* `Command.Failure.report` : the text of the report.
-/

namespace AccessGraph.Command

/-- Why a run of the command can fail. -/
inductive Failure where
  /-- The settings cannot be read. -/
  | configUnread (path : String) (fault : Files.Fault)
  /-- The settings are refused. -/
  | configRefused (path : String) (fault : Settings.Fault)
  /-- The log filter is refused. -/
  | logFilter (filter : String) (fault : LogFilter.Fault)
  /-- The program cannot be read. -/
  | inputUnread (path : String) (fault : Files.Fault)
  /-- The program is refused. -/
  | inputRefused (path : String) (fault : Json.Fault)
  /-- The program has no graph. -/
  | extraction (failure : AccessGraph.Failure)
  /-- The graph cannot be written. -/
  | output (fault : Files.Fault)

namespace Failure

/-- What is reported, followed by its causes. -/
def chain : Failure → String × List String
  | configUnread path fault =>
    ("Cannot read config file: " ++ path, ["IO error: " ++ fault.message, fault.message])
  | configRefused path fault =>
    ("Cannot read config file: " ++ path,
      ["Configuration error: TOML parse error\n" ++ fault.message])
  | logFilter filter fault => ("invalid log filter '" ++ filter ++ "': " ++ fault.message, [])
  | inputUnread path fault => ("Cannot read input file: " ++ path, [fault.message])
  | inputRefused path fault =>
    ("Invalid program representation: " ++ path,
      ["Program error: " ++ fault.message, fault.message])
  | extraction failure => (failure.message, [])
  | output fault => (fault.message, [])

/-- A text with each of its lines but the first one moved to the right. -/
def indent (width : Nat) (text : String) : String :=
  String.ofList (text.toList.flatMap fun c =>
    if c = '\n' then '\n' :: List.replicate width ' ' else [c])

/-- The line of a cause in a report, which may have further lines. -/
def causeLine (number : Nat) (cause : String) : String :=
  "\n    " ++ toString number ++ ": " ++ indent 7 cause

/-- The text of a report. Causes are numbered if there are several. -/
def reportOf (top : String) : (causes : List String) → String
  | [] => "Error: " ++ top
  | [cause] => "Error: " ++ top ++ "\n\nCaused by:\n    " ++ indent 4 cause
  | causes =>
    "Error: " ++ top ++ "\n\nCaused by:" ++
      String.join (causes.zipIdx.map fun (cause, number) => causeLine number cause)

/-- The text of the report on a failure. -/
def report (f : Failure) : String := reportOf f.chain.1 f.chain.2

end Failure

end AccessGraph.Command
