import MiniC.Syntax
import MiniC.Diagnostic

/-!
The state of the parser and its elementary steps.

The parser looks at the tokens that are left, knows the span of the token it
took last, and remembers the type names met so far, because they decide between
a declaration and an expression. The last token is never taken, so there is
always one to look at. Recursion is bounded by fuel; running out of it is kept
apart from a fault in the source.
-/

namespace MiniC.Parser

structure State where
  /-- The tokens from the current one on. -/
  rest : List Lexeme
  /-- Span of the token before the current one; empty at the start of the source. -/
  previous : Span
  /-- Type names and struct tags seen so far. -/
  typeNames : List String

/-- Why parsing stops. -/
inductive Stop where
  | fault (diagnostic : Diagnostic)
  | exhausted

end MiniC.Parser

namespace MiniC

abbrev Parser := EStateM Parser.Stop Parser.State

namespace Parser

def State.tokenAt (distance : Nat) (state : State) : Token :=
  match state.rest[distance]? with
  | some lexeme => lexeme.token
  | none => .eof

def State.token (state : State) : Token := state.tokenAt 0

def State.span (state : State) : Span :=
  match state.rest with
  | lexeme :: _ => lexeme.span
  | [] => ⟨0, 0⟩

def State.advance (state : State) : State :=
  match state.rest with
  | current :: next :: more => { state with rest := next :: more, previous := current.span }
  | _ => state

def skipTokens (test : Token → Bool) (previous : Span) : List Lexeme → Span × List Lexeme
  | current :: next :: more =>
      if test current.token then skipTokens test current.span (next :: more)
      else (previous, current :: next :: more)
  | rest => (previous, rest)

def State.skipWhile (test : Token → Bool) (state : State) : State :=
  let (previous, rest) := skipTokens test state.previous state.rest
  { state with rest, previous }

def exhausted {α : Type} : Parser α := throw .exhausted

def fail {α : Type} (message : String) (span : Span) : Parser α :=
  throw (.fault ⟨.parser, message, span⟩)

def token : Parser Token := return (← get).token

def tokenAt (distance : Nat) : Parser Token := return (← get).tokenAt distance

def here : Parser Span := return (← get).span

def previous : Parser Span := return (← get).previous

def advance : Parser Unit := modify State.advance

def skipWhile (test : Token → Bool) : Parser Unit := modify (State.skipWhile test)

def isPunct (mark : Punct) : Token → Bool
  | .punct found => found = mark
  | _ => false

def isKeyword (word : Keyword) : Token → Bool
  | .keyword found => found = word
  | _ => false

def isEof : Token → Bool
  | .eof => true
  | _ => false

def eat (test : Token → Bool) : Parser Bool := do
  if test (← token) then
    advance
    return true
  else return false

def expect (test : Token → Bool) (what : String) : Parser Span := do
  let found ← token
  let span ← here
  if test found then
    advance
    return span
  else fail s!"Expected {what}, got {found.describe}" span

def expectPunct (mark : Punct) (what : String) : Parser Span :=
  expect (isPunct mark) what

def expectIdent : Parser (String × Span) := do
  let span ← here
  match ← token with
  | .ident name =>
      advance
      return (name, span)
  | found => fail s!"Expected identifier, got {found.describe}" span

def addTypeName (name : String) : Parser Unit :=
  modify fun state => { state with typeNames := name :: state.typeNames }

def isTypeName (name : String) : Parser Bool :=
  return (← get).typeNames.contains name

def skipQualifiers : Parser Unit := skipWhile (isKeyword .qualifier)

def skipBrackets : Parser Unit := do
  skipWhile fun found => !isPunct .rbracket found && !isEof found
  let _ ← expectPunct .rbracket "']'"

def atDeclaration : Parser Bool := do
  match ← token with
  | .typeWord _ => return true
  | .keyword .structWord => return true
  | .keyword .qualifier => return true
  | .keyword .typedefWord => return true
  | .ident _ =>
      match ← tokenAt 1 with
      | .ident _ => return true
      | _ => return false
  | _ => return false

def atCast : Parser Bool := do
  if !isPunct .lparen (← token) then return false
  match ← tokenAt 1 with
  | .keyword .qualifier => return true
  | .ident name => return (← isTypeName name) && isPunct .rparen (← tokenAt 2)
  | next => return next.startsType

/-- To the next semicolon or closing brace, and past it. -/
def State.recover (state : State) : State :=
  (state.skipWhile fun found =>
    !isPunct .semi found && !isPunct .rbrace found && !isEof found).advance

end Parser
end MiniC
