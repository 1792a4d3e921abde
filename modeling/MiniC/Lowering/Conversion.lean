import MiniC.Program
import MiniC.Diagnostic
import MiniC.Token

/-!
Conversions and operators on typed terms.

These functions check operand types and insert the conversions that an operator,
an assignment or a cast asks for. Conversions of literals are carried out at
once.
-/

namespace MiniC.Lowering

def arithKind? : Ty → Option Kind
  | .num kind => some kind
  | .bool => some .i32
  | _ => none

def integerKind? (ty : Ty) : Option Kind :=
  (arithKind? ty).filter Kind.isInteger

def isCondition (ty : Ty) : Bool := ty.isNumeric || ty = .bool

def convert (term : Term) (kind : Kind) : Term :=
  if term.ty = .num kind then term
  else
    match term.node with
    | .literal value => .literal (value.convert kind) (.num kind) term.span
    | _ => .mk (.num kind) term.span (.convert kind term)

/-- The implicit conversion of assignments, initial values, arguments and returns. -/
def coerce (term : Term) (target : Ty) : Except Diagnostic Term :=
  if term.ty = target then .ok term
  else
    match target, term.ty with
    | .num kind, .num _ => .ok (convert term kind)
    | .num kind, .bool => .ok (convert term kind)
    | .bool, .num _ => .ok (.mk .bool term.span (.truth term))
    | _, _ =>
        .error (.mismatch s!"cannot convert {term.ty.text} to {target.text}" term.span)

def invalidOperands (op : BinaryOp) (left right : Ty) (span : Span) : Diagnostic :=
  .unsupported s!"invalid operands to '{op.symbol}': {left.text} and {right.text}" span

def widen (ty : Ty) : Ty := if ty = .bool then .num .i32 else ty

def commonKind (op : BinaryOp) (left right : Term) (span : Span) : Except Diagnostic Kind :=
  match widen left.ty, widen right.ty with
  | .num first, .num second => .ok (first.promote second)
  | first, second =>
      .error
        (.unsupported s!"invalid operands to '{op.symbol}': {first.noCommonKind second}" span)

def isShift : ArithOp → Bool
  | .shl | .shr => true
  | _ => false

def binary (op : BinaryOp) (left right : Term) (span : Span) : Except Diagnostic Term :=
  let invalid : Except Diagnostic Term := .error (invalidOperands op left.ty right.ty span)
  match op.family with
  | .logical isAnd =>
      if isCondition left.ty && isCondition right.ty then
        .ok (.mk .bool span (.logical isAnd left right))
      else invalid
  | .relational compare =>
      let boolFn? := if left.ty = .bool ∧ right.ty = .bool then BinaryFn.compareBool? compare else none
      match boolFn? with
      | some fn => .ok (.mk .bool span (.binary fn left right))
      | none => do
          let kind ← commonKind op left right span
          return .mk .bool span
            (.binary (.compare compare kind) (convert left kind) (convert right kind))
  | .arithmetic arith => do
      let kind ← commonKind op left right span
      match BinaryFn.arith? arith kind with
      | some fn => return .mk (.num kind) span (.binary fn (convert left kind) (convert right kind))
      | none => invalid
  | .bitwise arith =>
      match integerKind? left.ty, integerKind? right.ty with
      | some leftKind, some rightKind =>
          let kind := if isShift arith then leftKind else leftKind.promote rightKind
          let countKind := if isShift arith then rightKind else kind
          match BinaryFn.arith? arith kind with
          | some fn =>
              .ok (.mk (.num kind) span
                (.binary fn (convert left kind) (convert right countKind)))
          | none => invalid
      | _, _ => invalid

def unary (op : UnaryOp) (operand : Term) (span : Span) : Except Diagnostic Term :=
  match op with
  | .not =>
      if isCondition operand.ty then .ok (.mk .bool span (.unary .not operand))
      else .error (.unsupported s!"invalid operand to '!': {operand.ty.text}" span)
  | _ =>
      match arithKind? operand.ty with
      | none =>
          .error (.unsupported s!"invalid operand to unary operator: {operand.ty.text}" span)
      | some kind =>
          match op with
          | .plus => .ok (convert operand kind)
          | .bitNot =>
              match UnaryFn.bitNot? kind with
              | some fn => .ok (.mk (.num kind) span (.unary fn (convert operand kind)))
              | none => .error (.unsupported s!"invalid operand to '~': {operand.ty.text}" span)
          | _ => .ok (.mk (.num kind) span (.unary (.negate kind) (convert operand kind)))

def unify (yes no : Term) (span : Span) : Except Diagnostic (Term × Term × Ty) :=
  if yes.ty = no.ty then .ok (yes, no, yes.ty)
  else
    match arithKind? yes.ty, arithKind? no.ty with
    | some first, some second =>
        let kind := first.promote second
        .ok (convert yes kind, convert no kind, .num kind)
    | _, _ =>
        .error
          (.mismatch
            s!"conditional arms have incompatible types {yes.ty.text} and {no.ty.text}" span)

/-- An explicit conversion. A cast to the empty type only changes the type of the term. -/
def cast (operand : Term) (target : Ty) (span : Span) : Except Diagnostic Term :=
  let invalid : Except Diagnostic Term :=
    .error (.mismatch s!"cannot cast {operand.ty.text} to {target.text}" span)
  match target with
  | .num kind => if (arithKind? operand.ty).isSome then .ok (convert operand kind) else invalid
  | .bool => if isCondition operand.ty then coerce operand target else invalid
  | .void => .ok (operand.withTy .void)
  | _ => invalid

/-- The kinds that an integer literal may take, in order of preference. -/
def literalKinds (literal : IntLiteral) : List Kind :=
  match literal.unsigned, literal.long with
  | true, true => [.u64]
  | true, false => [.u32, .u64]
  | false, true => [.i64, .u64]
  | false, false => if literal.based then [.i32, .u32, .i64, .u64] else [.i32, .i64, .u64]

def fitsKind (number : Nat) : Kind → Bool
  | .i32 => number < Nat.pow 2 31
  | .u32 => number < Nat.pow 2 32
  | .i64 => number < Nat.pow 2 63
  | _ => true

def literalKind (literal : IntLiteral) : Kind :=
  ((literalKinds literal).find? (fitsKind literal.value.toNat)).getD .u64

end MiniC.Lowering
