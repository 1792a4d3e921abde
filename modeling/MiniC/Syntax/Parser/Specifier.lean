import MiniC.Syntax.Parser.Basic

/-!
Parsing of declaration specifiers.

Type words may come in any order and number; the strongest of them decides. A
struct specifier may list its members, whose types are specifiers again.
-/

namespace MiniC.Parser

def specifierOfWords? (words : List TypeWord) : Option Specifier :=
  let has (word : TypeWord) : Bool := words.contains word
  -- The words `long` are counted in a byte.
  let longs := words.count .long % 256
  if has .void then some .void
  else if has .bool then some .bool
  else if has .double then some .double
  else if has .float then some .float
  else if 0 < longs then some (if has .unsigned then .unsignedLong else .long)
  else if has .unsigned then some .unsignedInt
  else if has .int || has .short || has .char || has .signed then some .int
  else none

def isSpecifierWord : Token → Bool
  | .typeWord _ => true
  | .keyword .qualifier => true
  | _ => false

def leadingWords : List Lexeme → List TypeWord
  | [] => []
  | lexeme :: rest =>
      match lexeme.token with
      | .typeWord word => word :: leadingWords rest
      | .keyword .qualifier => leadingWords rest
      | _ => []

def parseWords (start : Span) : Parser Specifier := do
  let words := leadingWords (← get).rest
  skipWhile isSpecifierWord
  if words.contains .signed && words.contains .unsigned then
    fail "Both 'signed' and 'unsigned' in declaration specifiers" (start.merge (← previous))
  else
    match specifierOfWords? words with
    | some spec => return spec
    | none => fail s!"Expected type, got {(← token).describe}" start

def parseMemberNames (spec : Specifier) (start : Span) : Nat → Parser (List Member)
  | 0 => exhausted
  | fuel + 1 => do
      let (name, nameSpan) ← expectIdent
      let isArray ← eat (isPunct .lbracket)
      if isArray then skipBrackets
      let member := Member.mk spec name isArray (start.merge nameSpan)
      if ← eat (isPunct .comma) then
        return member :: (← parseMemberNames spec start fuel)
      else return [member]

mutual

def parseSpecifier : Nat → Parser Specifier
  | 0 => exhausted
  | fuel + 1 => do
      skipQualifiers
      let start ← here
      match ← token with
      | .keyword .structWord =>
          let spec ← parseStruct fuel
          skipQualifiers
          return spec
      | .ident name =>
          if ← isTypeName name then
            advance
            skipQualifiers
            return .named name
          else parseWords start
      | _ => parseWords start

def parseStruct : Nat → Parser Specifier
  | 0 => exhausted
  | fuel + 1 => do
      let start ← expect (isKeyword .structWord) "'struct'"
      let tag? ← match ← token with
        | .ident name => do
            advance
            addTypeName name
            pure (some name)
        | _ => pure none
      if ← eat (isPunct .lbrace) then
        let members ← parseMembers fuel
        let finish ← expectPunct .rbrace "'\x7d'"
        return .struct tag? members (start.merge finish)
      else
        match tag? with
        | some tag => return .named tag
        | none => fail "Expected struct tag or member list" (← here)

def parseMembers : Nat → Parser (List Member)
  | 0 => exhausted
  | fuel + 1 => do
      let next ← token
      if isPunct .rbrace next || isEof next then return []
      let start ← here
      let spec ← parseSpecifier fuel
      let members ← parseMemberNames spec start fuel
      let _ ← expectPunct .semi "';' after struct member"
      return members ++ (← parseMembers fuel)

end

def parseSpecifiers (fuel : Nat) : Parser (Bool × Specifier) := do
  skipQualifiers
  let isTypedef ← eat (isKeyword .typedefWord)
  skipQualifiers
  return (isTypedef, ← parseSpecifier fuel)

end MiniC.Parser
