import AccessGraph.Program.Basic
/-!
# How a loop scope is executed

A loop scope stems from a loop statement, which runs in one of the kinds of `LoopKind`, or from the
binding of a hardware thread, which is named by a thread tag.

* `Execution` : the ways in which a loop scope is executed.
* `Execution.ofThreadTag`, `Execution.ofLoopKind` : the way that a tag or a kind asks for.
-/

namespace AccessGraph

/-- How a loop scope is executed or bound to hardware. -/
inductive Execution where
  | serial
  | parallel
  | vectorized
  | unrolled
  | blockX
  | blockY
  | blockZ
  | threadX
  | threadY
  | threadZ
  | virtualThread
  /-- Anything that a tag names without being one of the known threads. -/
  | pragma
  deriving DecidableEq, Repr

namespace Execution

/-- The execution that a thread tag asks for. The names of block and thread axes are exact, while
everything that starts with `vthread` is a virtual thread. -/
def ofThreadTag (tag : String) : Execution :=
  if tag = "blockIdx.x" then .blockX
  else if tag = "blockIdx.y" then .blockY
  else if tag = "blockIdx.z" then .blockZ
  else if tag = "threadIdx.x" then .threadX
  else if tag = "threadIdx.y" then .threadY
  else if tag = "threadIdx.z" then .threadZ
  else if "vthread".toList.isPrefixOf tag.toList then .virtualThread
  else .pragma

/-- The execution that a kind of loop asks for. -/
def ofLoopKind : LoopKind → Execution
  | .serial => .serial
  | .parallel => .parallel
  | .vectorized => .vectorized
  | .unrolled => .unrolled

/-- The name of an execution. -/
def name : Execution → String
  | .serial => "Serial"
  | .parallel => "Parallel"
  | .vectorized => "Vectorized"
  | .unrolled => "Unrolled"
  | .blockX => "BlockX"
  | .blockY => "BlockY"
  | .blockZ => "BlockZ"
  | .threadX => "ThreadX"
  | .threadY => "ThreadY"
  | .threadZ => "ThreadZ"
  | .virtualThread => "VirtualThread"
  | .pragma => "Pragma"

end Execution

end AccessGraph
