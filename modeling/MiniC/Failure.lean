/-!
Failures of a running program. Each ends the run.
-/

namespace MiniC

inductive RuntimeError where
  | indexOutOfRange (index : Int64) (length : Nat)
  | invalidArraySize (size : Int64)
  /-- An array or struct was used before its declaration ran. -/
  | uninitialized
  | stackOverflow (limit : Nat)
  /-- A function was called that has no definition. -/
  | missingBody (name : String)
  | output (reason : String)
deriving DecidableEq, Repr

def RuntimeError.message : RuntimeError → String
  | .indexOutOfRange index length =>
      s!"index {index.toInt} out of range for array of length {length}"
  | .invalidArraySize size => s!"invalid array size {size.toInt}"
  | .uninitialized => "array or struct used before its declaration ran"
  | .stackOverflow limit => s!"call depth limit of {limit} exceeded"
  | .missingBody name => s!"function '{name}' is declared but never defined"
  | .output reason => s!"output error: {reason}"

/-- An error with the functions that were active, innermost first. -/
structure Failure where
  error : RuntimeError
  trace : List String
deriving DecidableEq, Repr

namespace Failure

def maxTrace : Nat := 32

def leave (failure : Failure) (name : String) : Failure :=
  if failure.trace.length < maxTrace then { failure with trace := failure.trace ++ [name] }
  else failure

def message (failure : Failure) : String :=
  if failure.trace.isEmpty then failure.error.message
  else
    let path := " <- ".intercalate failure.trace
    s!"{failure.error.message} (in {path})"

end Failure
end MiniC
