import MiniC.Syntax.Parser.Stmt

/-!
Parsing of a whole source.

A fault in one item does not end parsing: it is recorded, the parser skips to
the next semicolon or closing brace, and goes on. The items are handed out only
when there was no fault.
-/

namespace MiniC.Parser

def parseParam (fuel : Nat) : Parser Param := do
  let start ← here
  let spec ← parseSpecifier fuel
  let name ← match ← token with
    | .ident name => do
        advance
        pure name
    | _ => pure ""
  let isArray ← eat (isPunct .lbracket)
  if isArray then skipBrackets
  return { spec, name, isArray, span := start.merge (← previous) }

def parseParams : Nat → Parser (List Param)
  | 0 => exhausted
  | fuel + 1 => do
      let first ← parseParam fuel
      if ← eat (isPunct .comma) then return first :: (← parseParams fuel)
      else return [first]

def parseFunction (fuel : Nat) (start : Span) (returns : Specifier) (name : String) :
    Parser FunctionDef := do
  let _ ← expectPunct .lparen "'('"
  match ← token with
  | .typeWord .void => if isPunct .rparen (← tokenAt 1) then advance
  | _ => pure ()
  let params ← if isPunct .rparen (← token) then pure [] else parseParams fuel
  let _ ← expectPunct .rparen "')'"
  if ← eat (isPunct .semi) then
    return { returns, name, params, body? := none, span := start.merge (← previous) }
  else
    let body ← parseBlock fuel
    return { returns, name, params, body? := some body, span := start.merge (← previous) }

/-- Whether a function name and its parameter list come next. -/
def atFunction : Parser Bool := do
  match ← token with
  | .ident _ => return isPunct .lparen (← tokenAt 1)
  | _ => return false

def parseItem (fuel : Nat) : Parser Item := do
  let start ← here
  let (isTypedef, spec) ← parseSpecifiers fuel
  if !isTypedef && (← atFunction) then
    let (name, _) ← expectIdent
    return .function (← parseFunction fuel start spec name)
  else return .declaration (← parseDeclarationRest fuel start isTypedef spec)

structure Outcome where
  items : List Item
  faults : List Diagnostic

def Stop.diagnostic (place : Span) : Stop → Diagnostic
  | .fault diagnostic => diagnostic
  | .exhausted => ⟨.parser, "Source is nested too deeply", place⟩

/-- All items from a state on. Each round takes at least one token, so as many rounds as there are
tokens suffice. -/
def parseItems (fuel : Nat) : Nat → State → Outcome
  | 0, _ => ⟨[], []⟩
  | rounds + 1, state =>
      if isEof state.token then ⟨[], []⟩
      else if isPunct .semi state.token then parseItems fuel rounds state.advance
      else
        match parseItem fuel state with
        | .ok item next =>
            let others := parseItems fuel rounds next
            { others with items := item :: others.items }
        | .error stop next =>
            let others := parseItems fuel rounds next.recover
            { others with faults := stop.diagnostic next.span :: others.faults }

def State.initial (lexemes : List Lexeme) : State :=
  { rest := lexemes
    previous := ⟨0, 0⟩
    typeNames := typeAliases.map Prod.fst }

/-- Nested calls that take no token are fewer than the levels of the grammar, so this many always
suffice. -/
def sufficientFuel (lexemes : List Lexeme) : Nat :=
  32 * (lexemes.length + 1)

end MiniC.Parser

namespace MiniC

/-- The items of a source, or its faults. -/
def parse (lexemes : List Lexeme) : Except (List Diagnostic) (List Item) :=
  let outcome :=
    Parser.parseItems (Parser.sufficientFuel lexemes) (lexemes.length + 1) (.initial lexemes)
  if outcome.faults.isEmpty then .ok outcome.items else .error outcome.faults

end MiniC
