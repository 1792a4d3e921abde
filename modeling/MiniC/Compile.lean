import MiniC.Token.Lexer
import MiniC.Syntax.Parser.Unit
import MiniC.Lowering.Unit

/-!
Compilation of a source: lexing, parsing and lowering in a row.
-/

namespace MiniC

inductive Compiled where
  | program (program : Program)
  | faults (diagnostics : List Diagnostic)
  /-- The scan of the source broke off. -/
  | aborted

/-- The faults of the first stage that has any, or the program. -/
def compile (source : String) : Compiled :=
  match lex source with
  | .aborted => .aborted
  | .faults diagnostics => .faults diagnostics
  | .tokens lexemes =>
      match parse lexemes with
      | .error diagnostics => .faults diagnostics
      | .ok items =>
          match lower items with
          | .error diagnostic => .faults [diagnostic]
          | .ok program => .program program

end MiniC
