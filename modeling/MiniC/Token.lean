import MiniC.Span
import MiniC.Operator
import MiniC.Decimal.Shortest
import MiniC.Text.Quoted

/-!
Tokens.

Keywords, type words and punctuation are closed enumerations; literals and
identifiers carry their content. `Token.describe` is the form in which a token
appears in a diagnostic, always on one line.
-/

namespace MiniC

structure IntLiteral where
  value : UInt64
  unsigned : Bool
  long : Bool
  /-- Written in base eight or sixteen. -/
  based : Bool
deriving DecidableEq, Repr

inductive Keyword where
  | ifWord
  | elseWord
  | whileWord
  | doWord
  | forWord
  | returnWord
  | breakWord
  | continueWord
  | structWord
  | typedefWord
  | trueWord
  | falseWord
  /-- A storage class or type qualifier; it is read and ignored. -/
  | qualifier
deriving DecidableEq, Repr

inductive TypeWord where
  | int
  | short
  | char
  | long
  | signed
  | unsigned
  | float
  | double
  | bool
  | void
deriving DecidableEq, Repr

inductive Punct where
  | lparen
  | rparen
  | lbrace
  | rbrace
  | lbracket
  | rbracket
  | semi
  | comma
  | dot
  | question
  | colon
  | plus
  | minus
  | star
  | slash
  | percent
  | plusPlus
  | minusMinus
  | amp
  | pipe
  | caret
  | tilde
  | bang
  | shl
  | shr
  | lt
  | gt
  | le
  | ge
  | eqEq
  | ne
  | andAnd
  | orOr
  | assign
deriving DecidableEq, Repr

inductive Token where
  | int (literal : IntLiteral)
  | float (value : Float) (single : Bool)
  | char (code : UInt32)
  | string (text : String)
  | ident (name : String)
  | keyword (word : Keyword)
  | typeWord (word : TypeWord)
  | punct (mark : Punct)
  /-- An assignment joined with an operator, such as `<<=`. -/
  | opAssign (op : BinaryOp)
  | eof
deriving Inhabited

structure Lexeme where
  token : Token
  span : Span
deriving Inhabited

def Keyword.describe : Keyword → String
  | .ifWord => "If"
  | .elseWord => "Else"
  | .whileWord => "While"
  | .doWord => "Do"
  | .forWord => "For"
  | .returnWord => "Return"
  | .breakWord => "Break"
  | .continueWord => "Continue"
  | .structWord => "Struct"
  | .typedefWord => "Typedef"
  | .trueWord => "True"
  | .falseWord => "False"
  | .qualifier => "Qualifier"

def TypeWord.describe : TypeWord → String
  | .int => "IntTy"
  | .short => "ShortTy"
  | .char => "CharTy"
  | .long => "LongTy"
  | .signed => "SignedTy"
  | .unsigned => "UnsignedTy"
  | .float => "FloatTy"
  | .double => "DoubleTy"
  | .bool => "BoolTy"
  | .void => "VoidTy"

def Punct.describe : Punct → String
  | .lparen => "LParen"
  | .rparen => "RParen"
  | .lbrace => "LBrace"
  | .rbrace => "RBrace"
  | .lbracket => "LBracket"
  | .rbracket => "RBracket"
  | .semi => "Semi"
  | .comma => "Comma"
  | .dot => "Dot"
  | .question => "Question"
  | .colon => "Colon"
  | .plus => "Plus"
  | .minus => "Minus"
  | .star => "Star"
  | .slash => "Slash"
  | .percent => "Percent"
  | .plusPlus => "PlusPlus"
  | .minusMinus => "MinusMinus"
  | .amp => "Amp"
  | .pipe => "Pipe"
  | .caret => "Caret"
  | .tilde => "Tilde"
  | .bang => "Bang"
  | .shl => "Shl"
  | .shr => "Shr"
  | .lt => "Lt"
  | .gt => "Gt"
  | .le => "Le"
  | .ge => "Ge"
  | .eqEq => "EqEq"
  | .ne => "Ne"
  | .andAnd => "AndAnd"
  | .orOr => "OrOr"
  | .assign => "Eq"

def IntLiteral.describe (literal : IntLiteral) : String :=
  s!"IntLiteral \x7b value: {literal.value.toNat}, unsigned: {literal.unsigned}, " ++
    s!"long: {literal.long}, radix_literal: {literal.based} \x7d"

def Token.describe : Token → String
  | .int literal => s!"Int({literal.describe})"
  | .float value single =>
      s!"Float \x7b value: {Decimal.shortestText value}, single: {single} \x7d"
  | .char code => s!"Char({code.toNat})"
  | .string text => s!"String({Text.quote text})"
  | .ident name => s!"Ident({Text.quote name})"
  | .keyword word => word.describe
  | .typeWord word => word.describe
  | .punct mark => mark.describe
  | .opAssign op => s!"CompoundAssign({Text.quote op.symbol})"
  | .eof => "Eof"

def Token.startsType : Token → Bool
  | .typeWord _ => true
  | .keyword .structWord => true
  | _ => false

end MiniC
