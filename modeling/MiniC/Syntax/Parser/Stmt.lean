import MiniC.Syntax.Parser.Expr

/-!
Parsing of declarations and statements.
-/

namespace MiniC.Parser

/-- One declarator. A type name counts from its own declarator on. -/
def parseDeclarator (fuel : Nat) (isTypedef : Bool) : Parser Declarator := do
  let (name, nameSpan) ← expectIdent
  if isTypedef then addTypeName name
  let length? ←
    if ← eat (isPunct .lbracket) then do
      let length ← parseAssignment fuel
      let _ ← expectPunct .rbracket "']'"
      pure (some length)
    else pure none
  let init? ←
    if ← eat (isPunct .assign) then do
      if isPunct .lbrace (← token) then
        fail "Brace initializers are not supported" (← here)
      else some <$> parseAssignment fuel
    else pure none
  return { name, length?, init?, span := nameSpan.merge (← previous) }

def parseDeclarators (isTypedef : Bool) : Nat → Parser (List Declarator)
  | 0 => exhausted
  | fuel + 1 => do
      let first ← parseDeclarator fuel isTypedef
      if ← eat (isPunct .comma) then
        return first :: (← parseDeclarators isTypedef fuel)
      else return [first]

def parseDeclarationRest (fuel : Nat) (start : Span) (isTypedef : Bool) (spec : Specifier) :
    Parser Declaration := do
  let declarators ←
    if isPunct .semi (← token) then pure [] else parseDeclarators isTypedef fuel
  let finish ← expectPunct .semi "';' after declaration"
  return { isTypedef, spec, declarators, span := start.merge finish }

def parseDeclaration (fuel : Nat) : Parser Declaration := do
  let start ← here
  let (isTypedef, spec) ← parseSpecifiers fuel
  parseDeclarationRest fuel start isTypedef spec

def parseForInit (fuel : Nat) : Parser ForInit := do
  let start ← here
  if ← eat (isPunct .semi) then return .none
  else if ← atDeclaration then
    let declaration ← parseDeclaration fuel
    return .decl (start.merge (← previous)) declaration
  else
    let expr ← parseExpr fuel
    let _ ← expectPunct .semi "';' in for"
    return .expr (start.merge (← previous)) expr

def parseExprUnless (mark : Punct) (fuel : Nat) : Parser (Option Expr) := do
  if isPunct mark (← token) then return none
  else return some (← parseExpr fuel)

mutual

def parseStmt : Nat → Parser Stmt
  | 0 => exhausted
  | fuel + 1 => do
      let start ← here
      match ← token with
      | .punct .lbrace =>
          let body ← parseBlock fuel
          return .block (start.merge (← previous)) body
      | .punct .semi =>
          advance
          return .empty (start.merge (← previous))
      | .keyword .ifWord =>
          advance
          let _ ← expectPunct .lparen "'(' after 'if'"
          let cond ← parseExpr fuel
          let _ ← expectPunct .rparen "')'"
          let yes ← parseStmt fuel
          let no ←
            if ← eat (isKeyword .elseWord) then some <$> parseStmt fuel else pure none
          return .branch (start.merge (← previous)) cond yes no
      | .keyword .whileWord =>
          advance
          let _ ← expectPunct .lparen "'(' after 'while'"
          let cond ← parseExpr fuel
          let _ ← expectPunct .rparen "')'"
          let body ← parseStmt fuel
          return .whileLoop (start.merge (← previous)) cond body
      | .keyword .doWord =>
          advance
          let body ← parseStmt fuel
          let _ ← expect (isKeyword .whileWord) "'while' after do body"
          let _ ← expectPunct .lparen "'('"
          let cond ← parseExpr fuel
          let _ ← expectPunct .rparen "')'"
          let _ ← expectPunct .semi "';'"
          return .doLoop (start.merge (← previous)) body cond
      | .keyword .forWord =>
          advance
          let _ ← expectPunct .lparen "'(' after 'for'"
          let init ← parseForInit fuel
          let cond ← parseExprUnless .semi fuel
          let _ ← expectPunct .semi "';' in for"
          let step ← parseExprUnless .rparen fuel
          let _ ← expectPunct .rparen "')'"
          let body ← parseStmt fuel
          return .forLoop (start.merge (← previous)) init cond step body
      | .keyword .returnWord =>
          advance
          let value ← parseExprUnless .semi fuel
          let _ ← expectPunct .semi "';' after return"
          return .ret (start.merge (← previous)) value
      | .keyword .breakWord =>
          advance
          let _ ← expectPunct .semi "';' after break"
          return .brk (start.merge (← previous))
      | .keyword .continueWord =>
          advance
          let _ ← expectPunct .semi "';' after continue"
          return .cont (start.merge (← previous))
      | _ =>
          if ← atDeclaration then
            let declaration ← parseDeclaration fuel
            return .decl (start.merge (← previous)) declaration
          else
            let expr ← parseExpr fuel
            let _ ← expectPunct .semi "';' after expression"
            return .expr (start.merge (← previous)) expr

def parseBlock : Nat → Parser (List Stmt)
  | 0 => exhausted
  | fuel + 1 => do
      let _ ← expectPunct .lbrace "'\x7b'"
      let body ← parseStmts fuel
      let _ ← expectPunct .rbrace "'\x7d'"
      return body

def parseStmts : Nat → Parser (List Stmt)
  | 0 => exhausted
  | fuel + 1 => do
      let next ← token
      if isPunct .rbrace next || isEof next then return []
      let first ← parseStmt fuel
      return first :: (← parseStmts fuel)

end

end MiniC.Parser
