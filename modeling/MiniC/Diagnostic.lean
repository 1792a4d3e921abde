import MiniC.Span
import MiniC.Text.Blank
import MiniC.Text.Offset

/-!
Diagnostics of the front end.

A diagnostic has a category, a message and a span. Rendering against the source
gives one line: category, line and column, message, and the first line of the
text under the span when there is any.
-/

namespace MiniC

inductive Category where
  | lexer
  | parser
  | preprocessor
  | duplicateSymbol
  | unknownIdentifier
  | unsupportedOperation
  | invalidTarget
  | typeMismatch
deriving DecidableEq, Repr

def Category.label : Category → String
  | .lexer => "lexer"
  | .parser => "parser"
  | .preprocessor => "preprocessor"
  | .duplicateSymbol => "duplicate symbol"
  | .unknownIdentifier => "unknown identifier"
  | .unsupportedOperation => "unsupported operation"
  | .invalidTarget => "invalid assignment target"
  | .typeMismatch => "type mismatch"

structure Diagnostic where
  category : Category
  message : String
  span : Span
deriving DecidableEq, Repr

namespace Diagnostic

def duplicate (name : String) (span : Span) : Diagnostic :=
  ⟨.duplicateSymbol, s!"identifier '{name}' already exists in this scope", span⟩

def unknown (name : String) (span : Span) : Diagnostic :=
  ⟨.unknownIdentifier, s!"undefined identifier '{name}'", span⟩

def unknownMember (owner member : String) (span : Span) : Diagnostic :=
  ⟨.unknownIdentifier, s!"{owner} has no member named '{member}'", span⟩

def unsupported (message : String) (span : Span) : Diagnostic :=
  ⟨.unsupportedOperation, message, span⟩

def invalidTarget (message : String) (span : Span) : Diagnostic :=
  ⟨.invalidTarget, message, span⟩

def mismatch (message : String) (span : Span) : Diagnostic :=
  ⟨.typeMismatch, message, span⟩

def snippet (diagnostic : Diagnostic) (source : List Char) : List Char :=
  let finish := min diagnostic.span.finish (Text.byteSize source)
  match Text.slice? diagnostic.span.start finish source with
  | none => []
  | some text => Text.trim (text.takeWhile (· != '\n'))

def render (diagnostic : Diagnostic) (source : List Char) : String :=
  let position := Text.positionAt source diagnostic.span.start
  let head :=
    s!"[{diagnostic.category.label}] line {position.line}:{position.column}: {diagnostic.message}"
  let text := diagnostic.snippet source
  if text.isEmpty then head else s!"{head} (at `{String.ofList text}`)"

def renderAll (diagnostics : List Diagnostic) (source : String) : String :=
  "\n".intercalate (diagnostics.map fun diagnostic => diagnostic.render source.toList)

end Diagnostic
end MiniC
