import MiniC.Syntax.Parser.Specifier

/-!
Parsing of expressions.

From loose to tight: comma, assignment and the conditional operator, which
associate to the right except for the comma, the ten levels of binary operators,
which associate to the left, then operators in front of their operand and casts,
and at last subscripts, members, calls and operators behind their operand.
-/

namespace MiniC.Parser

/-- The binary operators by level, from loose to tight. -/
def operatorLevels : List (List (Punct × BinaryOp)) :=
  [[(.orOr, .or)],
    [(.andAnd, .and)],
    [(.pipe, .bitOr)],
    [(.caret, .bitXor)],
    [(.amp, .bitAnd)],
    [(.eqEq, .eq), (.ne, .ne)],
    [(.lt, .lt), (.le, .le), (.gt, .gt), (.ge, .ge)],
    [(.shl, .shl), (.shr, .shr)],
    [(.plus, .add), (.minus, .sub)],
    [(.star, .mul), (.slash, .div), (.percent, .rem)]]

def operatorOf? (level : List (Punct × BinaryOp)) : Token → Option BinaryOp
  | .punct mark => level.lookup mark
  | _ => none

def assignmentOf? : Token → Option (Option BinaryOp)
  | .punct .assign => some none
  | .opAssign op => some (some op)
  | _ => none

def unaryOf? : Token → Option UnaryOp
  | .punct .minus => some .negate
  | .punct .plus => some .plus
  | .punct .bang => some .not
  | .punct .tilde => some .bitNot
  | _ => none

def incDecOf? : Token → Option Bool
  | .punct .plusPlus => some true
  | .punct .minusMinus => some false
  | _ => none

def joinStrings : List Lexeme → String
  | [] => ""
  | lexeme :: rest =>
      match lexeme.token with
      | .string text => text ++ joinStrings rest
      | _ => ""

def isString : Token → Bool
  | .string _ => true
  | _ => false

mutual

def parseExpr : Nat → Parser Expr
  | 0 => exhausted
  | fuel + 1 => do parseCommas fuel (← parseAssignment fuel)

def parseCommas : Nat → Expr → Parser Expr
  | 0, _ => exhausted
  | fuel + 1, left => do
      if ← eat (isPunct .comma) then
        let right ← parseAssignment fuel
        parseCommas fuel (.comma (left.span.merge right.span) left right)
      else return left

def parseAssignment : Nat → Parser Expr
  | 0 => exhausted
  | fuel + 1 => do
      let target ← parseConditional fuel
      match assignmentOf? (← token) with
      | none => return target
      | some op =>
          advance
          let value ← parseAssignment fuel
          return .assign (target.span.merge value.span) op target value

def parseConditional : Nat → Parser Expr
  | 0 => exhausted
  | fuel + 1 => do
      let cond ← parseBinary fuel operatorLevels
      if ← eat (isPunct .question) then
        let yes ← parseExpr fuel
        let _ ← expectPunct .colon "':' in conditional expression"
        let no ← parseConditional fuel
        return .conditional (cond.span.merge no.span) cond yes no
      else return cond

def parseBinary : Nat → List (List (Punct × BinaryOp)) → Parser Expr
  | 0, _ => exhausted
  | fuel + 1, [] => parseUnary fuel
  | fuel + 1, level :: tighter => do
      parseOperands fuel level tighter (← parseBinary fuel tighter)

def parseOperands : Nat → List (Punct × BinaryOp) → List (List (Punct × BinaryOp)) → Expr →
    Parser Expr
  | 0, _, _, _ => exhausted
  | fuel + 1, level, tighter, left => do
      match operatorOf? level (← token) with
      | none => return left
      | some op =>
          advance
          let right ← parseBinary fuel tighter
          parseOperands fuel level tighter (.binary (left.span.merge right.span) op left right)

def parseUnary : Nat → Parser Expr
  | 0 => exhausted
  | fuel + 1 => do
      let start ← here
      let first ← token
      match unaryOf? first with
      | some op =>
          advance
          let operand ← parseUnary fuel
          return .unary (start.merge operand.span) op operand
      | none =>
          match incDecOf? first with
          | some increment =>
              advance
              let operand ← parseUnary fuel
              return .incDec (start.merge operand.span) increment true operand
          | none =>
              if ← atCast then
                advance
                let spec ← parseSpecifier fuel
                let _ ← expectPunct .rparen "')' after cast type"
                let operand ← parseUnary fuel
                return .cast (start.merge operand.span) spec operand
              else parsePostfixes fuel (← parsePrimary fuel)

def parsePostfixes : Nat → Expr → Parser Expr
  | 0, _ => exhausted
  | fuel + 1, expr => do
      match ← token with
      | .punct .lbracket =>
          advance
          let index ← parseExpr fuel
          let finish ← expectPunct .rbracket "']'"
          parsePostfixes fuel (.subscript (expr.span.merge finish) expr index)
      | .punct .dot =>
          advance
          let (name, nameSpan) ← expectIdent
          parsePostfixes fuel (.field (expr.span.merge nameSpan) expr name)
      | .punct .lparen =>
          match expr with
          | .ident nameSpan name =>
              advance
              let args ← parseArgs fuel
              parsePostfixes fuel (.call (nameSpan.merge (← previous)) name nameSpan args)
          | _ => fail "Only named functions can be called" (← here)
      | next =>
          match incDecOf? next with
          | some increment =>
              let finish ← here
              advance
              parsePostfixes fuel (.incDec (expr.span.merge finish) increment false expr)
          | none => return expr

/-- Arguments up to and with the closing parenthesis. -/
def parseArgs : Nat → Parser (List Expr)
  | 0 => exhausted
  | fuel + 1 => do
      let args ←
        if isPunct .rparen (← token) then pure []
        else do
          let first ← parseAssignment fuel
          let more ← parseMoreArgs fuel
          pure (first :: more)
      let _ ← expectPunct .rparen "')' after arguments"
      return args

def parseMoreArgs : Nat → Parser (List Expr)
  | 0 => exhausted
  | fuel + 1 => do
      if ← eat (isPunct .comma) then
        let next ← parseAssignment fuel
        return next :: (← parseMoreArgs fuel)
      else return []

def parsePrimary : Nat → Parser Expr
  | 0 => exhausted
  | fuel + 1 => do
      let span ← here
      match ← token with
      | .int literal =>
          advance
          return .int span literal
      | .float value single =>
          advance
          return .float span value single
      | .char code =>
          advance
          return .char span code
      | .string _ =>
          let text := joinStrings (← get).rest
          skipWhile isString
          return .str (span.merge (← previous)) text
      | .keyword .trueWord =>
          advance
          return .bool span true
      | .keyword .falseWord =>
          advance
          return .bool span false
      | .ident name =>
          advance
          return .ident span name
      | .punct .lparen =>
          advance
          let inner ← parseExpr fuel
          let finish ← expectPunct .rparen "')'"
          return inner.withSpan (span.merge finish)
      | found => fail s!"Expected expression, got {found.describe}" span

end

end MiniC.Parser
