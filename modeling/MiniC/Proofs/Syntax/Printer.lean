import MiniC.Syntax

/-!
Expressions written as tokens.

Every form of expression has a level, and every place inside a form asks for one:
an expression with a smaller level is put between parentheses there, and no other
is. From loose to tight the levels are the comma, assignments, the conditional
operator, ten levels of binary operators, operators in front of their operand
with casts, and at last what begins with a primary expression.
-/

namespace MiniC

def BinaryOp.mark : BinaryOp → Punct
  | .add => .plus
  | .sub => .minus
  | .mul => .star
  | .div => .slash
  | .rem => .percent
  | .shl => .shl
  | .shr => .shr
  | .bitAnd => .amp
  | .bitOr => .pipe
  | .bitXor => .caret
  | .lt => .lt
  | .le => .le
  | .gt => .gt
  | .ge => .ge
  | .eq => .eqEq
  | .ne => .ne
  | .and => .andAnd
  | .or => .orOr

def BinaryOp.level : BinaryOp → Nat
  | .or => 3
  | .and => 4
  | .bitOr => 5
  | .bitXor => 6
  | .bitAnd => 7
  | .eq | .ne => 8
  | .lt | .le | .gt | .ge => 9
  | .shl | .shr => 10
  | .add | .sub => 11
  | .mul | .div | .rem => 12

theorem BinaryOp.le_level (op : BinaryOp) : 3 ≤ op.level := by
  cases op <;> decide

theorem BinaryOp.level_le (op : BinaryOp) : op.level ≤ 12 := by
  cases op <;> decide

def UnaryOp.mark : UnaryOp → Punct
  | .negate => .minus
  | .plus => .plus
  | .not => .bang
  | .bitNot => .tilde

def stepMark (increment : Bool) : Punct := if increment then .plusPlus else .minusMinus

def assignToken : Option BinaryOp → Token
  | none => .punct .assign
  | some op => .opAssign op

/-- The words of a primitive type. -/
def Specifier.words : Specifier → List TypeWord
  | .int => [.int]
  | .unsignedInt => [.unsigned]
  | .long => [.long]
  | .unsignedLong => [.unsigned, .long]
  | .float => [.float]
  | .double => [.double]
  | .bool => [.bool]
  | .void => [.void]
  | .named _ | .struct _ _ _ => []

/-- A type as it is written in a cast. A struct with its member list is not written there. -/
def Specifier.tokens : Specifier → List Token
  | .named name => [.ident name]
  | spec => spec.words.map .typeWord

/-- A primitive type, or one of the given names. -/
def Specifier.isKnown (typeNames : List String) : Specifier → Bool
  | .named name => typeNames.contains name
  | .struct _ _ _ => false
  | _ => true

namespace Expr

def level : Expr → Nat
  | comma _ _ _ => 0
  | assign _ _ _ _ => 1
  | conditional _ _ _ _ => 2
  | binary _ op _ _ => op.level
  | unary _ _ _ | cast _ _ _ | incDec _ _ true _ => 13
  | _ => 14

/-! ### Tokens -/

def enclosed (asked level : Nat) (tokens : List Token) : List Token :=
  if level < asked then .punct .lparen :: (tokens ++ [.punct .rparen]) else tokens

mutual

def tokens : Expr → List Token
  | int _ literal => [.int literal]
  | float _ value single => [.float value single]
  | char _ code => [.char code]
  | str _ text => [.string text]
  | bool _ true => [.keyword .trueWord]
  | bool _ false => [.keyword .falseWord]
  | ident _ name => [.ident name]
  | binary _ op left right =>
      enclosed op.level left.level left.tokens ++
        .punct op.mark :: enclosed (op.level + 1) right.level right.tokens
  | assign _ op target value =>
      enclosed 2 target.level target.tokens ++
        assignToken op :: enclosed 1 value.level value.tokens
  | unary _ op operand => .punct op.mark :: enclosed 13 operand.level operand.tokens
  | incDec _ increment true operand =>
      .punct (stepMark increment) :: enclosed 13 operand.level operand.tokens
  | incDec _ increment false operand =>
      enclosed 14 operand.level operand.tokens ++ [.punct (stepMark increment)]
  | call _ name _ args =>
      .ident name :: .punct .lparen :: (argTokens args ++ [.punct .rparen])
  | subscript _ base index =>
      enclosed 14 base.level base.tokens ++
        .punct .lbracket :: (index.tokens ++ [.punct .rbracket])
  | field _ owner name =>
      enclosed 14 owner.level owner.tokens ++ [.punct .dot, .ident name]
  | conditional _ cond yes no =>
      enclosed 3 cond.level cond.tokens ++
        .punct .question :: (yes.tokens ++
          .punct .colon :: enclosed 2 no.level no.tokens)
  | cast _ spec operand =>
      .punct .lparen :: (spec.tokens ++
        .punct .rparen :: enclosed 13 operand.level operand.tokens)
  | comma _ left right =>
      enclosed 0 left.level left.tokens ++
        .punct .comma :: enclosed 1 right.level right.tokens
termination_by structural expr => expr

def argTokens : List Expr → List Token
  | [] => []
  | first :: rest => enclosed 1 first.level first.tokens ++ moreArgTokens rest
termination_by structural args => args

def moreArgTokens : List Expr → List Token
  | [] => []
  | next :: rest =>
      .punct .comma :: (enclosed 1 next.level next.tokens ++ moreArgTokens rest)
termination_by structural args => args

end

/-- The tokens of an expression at a place that asks for a level. -/
def tokensAt (asked : Nat) (expr : Expr) : List Token :=
  enclosed asked expr.level expr.tokens

theorem argTokens_cons (first : Expr) (rest : List Expr) :
    argTokens (first :: rest) = first.tokensAt 1 ++ moreArgTokens rest :=
  rfl

theorem moreArgTokens_cons (next : Expr) (rest : List Expr) :
    moreArgTokens (next :: rest) =
      .punct .comma :: (next.tokensAt 1 ++ moreArgTokens rest) :=
  rfl

mutual

def unplaced : Expr → Expr
  | int _ literal => int ⟨0, 0⟩ literal
  | float _ value single => float ⟨0, 0⟩ value single
  | char _ code => char ⟨0, 0⟩ code
  | str _ text => str ⟨0, 0⟩ text
  | bool _ value => bool ⟨0, 0⟩ value
  | ident _ name => ident ⟨0, 0⟩ name
  | binary _ op left right => binary ⟨0, 0⟩ op left.unplaced right.unplaced
  | assign _ op target value => assign ⟨0, 0⟩ op target.unplaced value.unplaced
  | unary _ op operand => unary ⟨0, 0⟩ op operand.unplaced
  | incDec _ increment before operand => incDec ⟨0, 0⟩ increment before operand.unplaced
  | call _ name _ args => call ⟨0, 0⟩ name ⟨0, 0⟩ (unplacedAll args)
  | subscript _ base index => subscript ⟨0, 0⟩ base.unplaced index.unplaced
  | field _ owner name => field ⟨0, 0⟩ owner.unplaced name
  | conditional _ cond yes no => conditional ⟨0, 0⟩ cond.unplaced yes.unplaced no.unplaced
  | cast _ spec operand => cast ⟨0, 0⟩ spec operand.unplaced
  | comma _ left right => comma ⟨0, 0⟩ left.unplaced right.unplaced
termination_by structural expr => expr

def unplacedAll : List Expr → List Expr
  | [] => []
  | first :: rest => first.unplaced :: unplacedAll rest
termination_by structural exprs => exprs

end

mutual

def castTypes : Expr → List Specifier
  | int _ _ | float _ _ _ | char _ _ | str _ _ | bool _ _ | ident _ _ => []
  | binary _ _ left right => left.castTypes ++ right.castTypes
  | assign _ _ target value => target.castTypes ++ value.castTypes
  | unary _ _ operand => operand.castTypes
  | incDec _ _ _ operand => operand.castTypes
  | call _ _ _ args => castTypesAll args
  | subscript _ base index => base.castTypes ++ index.castTypes
  | field _ owner _ => owner.castTypes
  | conditional _ cond yes no => cond.castTypes ++ (yes.castTypes ++ no.castTypes)
  | cast _ spec operand => spec :: operand.castTypes
  | comma _ left right => left.castTypes ++ right.castTypes
termination_by structural expr => expr

def castTypesAll : List Expr → List Specifier
  | [] => []
  | first :: rest => first.castTypes ++ castTypesAll rest
termination_by structural exprs => exprs

end

@[simp]
theorem unplaced_withSpan (place : Span) (expr : Expr) :
    (expr.withSpan place).unplaced = expr.unplaced := by
  cases expr <;> rfl

end Expr
end MiniC
