import MiniC.Diagnostic
import MiniC.Failure
import MiniC.Files

/-!
Why a host has no result to hand back.
-/

namespace MiniC

inductive HostError where
  /-- Faults of a source, with their text. -/
  | compile (diagnostics : List Diagnostic) (rendered : String)
  | noMain
  | mainTakesParameters
  | runtime (failure : Failure)
  /-- The scan of the source broke off. -/
  | aborted
  /-- The run spent all its fuel. -/
  | unfinished
  | io (error : FileError)
  /-- A document is not JSON, or not of the expected form. -/
  | json
deriving DecidableEq, Repr

namespace HostError

def ofFaults (diagnostics : List Diagnostic) (source : String) : HostError :=
  compile diagnostics (Diagnostic.renderAll diagnostics source)

def message : HostError → String
  | compile _ rendered => s!"compilation failed:\n{rendered}"
  | noMain => "no function main() defined"
  | mainTakesParameters => "main() must take no parameters"
  | runtime failure => s!"runtime error: {failure.message}"
  | aborted => "evaluation thread panicked"
  | unfinished => "evaluation did not end"
  | io error => s!"I/O error: {error.message}"
  | json => "JSON error: document of another form expected"

end HostError
end MiniC
