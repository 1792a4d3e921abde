import MiniC.Syntax
import MiniC.Lowering.Conversion

/-!
From expressions to typed terms.

Names are resolved in the scope tree, which an expression only reads. A struct
that a cast writes out in full is known inside its operand alone, because a cast
to a struct is always refused in the end.
-/

namespace MiniC.Lowering

def primitive? : Specifier → Option Ty
  | .int => some (.num .i32)
  | .unsignedInt => some (.num .u32)
  | .long => some (.num .i64)
  | .unsignedLong => some (.num .u64)
  | .float => some (.num .f32)
  | .double => some (.num .f64)
  | .bool => some .bool
  | .void => some .void
  | .named _ => none
  | .struct _ _ _ => none

mutual

/-- The type of a specifier in a scope, and the tree with the struct tags it defines. `hint` names a
struct without a tag. -/
def resolveSpecifier (scope : ScopeId) (hint : Option String) (span : Span) :
    Specifier → ScopeTree → Except Diagnostic (Ty × ScopeTree)
  | .int, tree => .ok (.num .i32, tree)
  | .unsignedInt, tree => .ok (.num .u32, tree)
  | .long, tree => .ok (.num .i64, tree)
  | .unsignedLong, tree => .ok (.num .u64, tree)
  | .float, tree => .ok (.num .f32, tree)
  | .double, tree => .ok (.num .f64, tree)
  | .bool, tree => .ok (.bool, tree)
  | .void, tree => .ok (.void, tree)
  | .named name, tree =>
      match tree.resolveType? scope name with
      | some ty => .ok (ty, tree)
      | none => .error (.unknown name span)
  | .struct tag? specs _, tree => do
      let (members, tree) ← resolveMembers scope specs [] tree
      let ty := Ty.struct ((tag?.or hint).getD "<anonymous>") members
      match tag? with
      | some tag => return (ty, tree.defineType scope tag ty)
      | none => return (ty, tree)
termination_by structural spec => spec

/-- The members of a struct behind those already found. Members are numbers or truth values, and no
two have one name. -/
def resolveMembers (scope : ScopeId) :
    List Member → List (String × Ty) → ScopeTree → Except Diagnostic (List (String × Ty) × ScopeTree)
  | [], found, tree => .ok (found, tree)
  | .mk spec name isArray span :: rest, found, tree => do
      let (ty, tree) ← resolveSpecifier scope none span spec tree
      if isArray || !isCondition ty then
        throw (.mismatch s!"struct member '{name}' must be numeric or bool" span)
      else if (found.lookup name).isSome then throw (.duplicate name span)
      else resolveMembers scope rest (found ++ [(name, ty)]) tree
termination_by structural members => members

end

def resolve (tree : ScopeTree) (scope : ScopeId) (name : String) (span : Span) :
    Except Diagnostic Symbol :=
  match tree.resolve? scope name with
  | some symbol => .ok symbol
  | none => .error (.unknown name span)

def identTerm (tree : ScopeTree) (scope : ScopeId) (name : String) (span : Span) :
    Except Diagnostic Term := do
  let symbol ← resolve tree scope name span
  match symbol.storage with
  | .scalar slot => return .mk symbol.ty span (.load (.scalar slot))
  | .reference slot => return .mk symbol.ty span (.load (.whole slot))
  | .constant value => return .mk symbol.ty span (.literal value)
  | .function _ => throw (.mismatch s!"function '{name}' used as a value" span)

def identPlace (tree : ScopeTree) (scope : ScopeId) (name : String) (span : Span) :
    Except Diagnostic (Place × Ty) := do
  let symbol ← resolve tree scope name span
  match symbol.storage with
  | .scalar slot => return (.scalar slot, symbol.ty)
  | .reference slot => return (.whole slot, symbol.ty)
  | _ => throw (.invalidTarget s!"cannot assign to '{name}'" span)

def referenceVariable (tree : ScopeTree) (scope : ScopeId) (expr : Expr) :
    Except Diagnostic (Slot × Ty) :=
  match expr with
  | .ident span name => do
      let symbol ← resolve tree scope name span
      match symbol.storage with
      | .reference slot => return (slot, symbol.ty)
      | _ =>
          throw
            (.mismatch s!"'{name}' is not an array or struct (it is {symbol.ty.text})" span)
  | _ =>
      throw
        (.unsupported "only named arrays and structs can be subscripted or accessed" expr.span)

def asIndex (refusal : String) (term : Term) : Except Diagnostic Term :=
  match integerKind? term.ty with
  | some kind => .ok (convert (convert term kind) .i64)
  | none => .error (.mismatch s!"{refusal} must be an integer, not {term.ty.text}" term.span)

def elementPlace (tree : ScopeTree) (scope : ScopeId) (base : Expr)
    (index : Except Diagnostic Term) : Except Diagnostic (Place × Ty) := do
  let (slot, ty) ← referenceVariable tree scope base
  match ty with
  | .array element => return (.element slot (← asIndex "array index" (← index)), element)
  | _ =>
      throw (.mismatch s!"subscripted value is not an array (it is {ty.text})" base.span)

def fieldPlace (tree : ScopeTree) (scope : ScopeId) (owner : Expr) (name : String) (span : Span) :
    Except Diagnostic (Place × Ty) := do
  let (slot, ty) ← referenceVariable tree scope owner
  match ty with
  | .struct _ members =>
      match Ty.memberAt? name members with
      | some (index, member) => return (.field slot index, member)
      | none => throw (.unknownMember ty.text name span)
  | _ => throw (.mismatch s!"member access on non-struct type {ty.text}" owner.span)

def loadTerm (span : Span) : Place × Ty → Term
  | (place, ty) => .mk ty span (.load place)

/-- A value fit to be stored in a variable of the type: structs as they are, all else converted. -/
def storable (value : Term) (ty : Ty) : Except Diagnostic Term :=
  match ty with
  | .struct _ _ =>
      if value.ty = ty then .ok value
      else .error (.mismatch s!"cannot assign {value.ty.text} to {ty.text}" value.span)
  | _ => coerce value ty

/-- A compound assignment, or `++` or `--`. -/
def updateTerm (op : BinaryOp) (target : Place × Ty) (targetSpan : Span) (rhs : Term)
    (yieldsOld : Bool) (span : Span) : Except Diagnostic Term :=
  let (place, ty) := target
  match ty.kind?, arithKind? rhs.ty with
  | none, _ =>
      .error
        (.unsupported s!"operator '{op.symbol}' needs a numeric target, not {ty.text}" targetSpan)
  | some _, none =>
      .error
        (.unsupported s!"invalid operands to '{op.symbol}': {ty.text} and {rhs.ty.text}" rhs.span)
  | some targetKind, some rhsKind =>
      let build (arith : ArithOp) (bitwise : Bool) : Except Diagnostic Term :=
        let operand := if isShift arith then targetKind else targetKind.promote rhsKind
        let allowed := !bitwise || (operand.isInteger && rhsKind.isInteger)
        match (BinaryFn.arith? arith operand).filter fun _ => allowed with
        | none => .error (invalidOperands op ty rhs.ty span)
        | some fn =>
            let rhs := convert rhs (if isShift arith then rhsKind else operand)
            .ok (.mk ty span (.update place fn operand rhs yieldsOld))
      match op.family with
      | .arithmetic arith => build arith false
      | .bitwise arith => build arith true
      | _ =>
          .error (.unsupported s!"'{op.symbol}' is not a compound assignment operator" span)

def argument (arg : Term) (param : Ty) : Except Diagnostic Term :=
  match param with
  | .array _ | .struct _ _ =>
      if arg.ty = param then .ok arg
      else
        .error
          (.mismatch s!"argument of type {arg.ty.text} where {param.text} is expected" arg.span)
  | _ => coerce arg param

def arguments : List Term → List Ty → Except Diagnostic (List Term)
  | arg :: args, param :: params => do
      let first ← argument arg param
      return first :: (← arguments args params)
  | _, _ => .ok []

/-- The function that a call names, with its type; its arguments must be as many as its
parameters. -/
def callee (tree : ScopeTree) (scope : ScopeId) (name : String) (nameSpan : Span) (count : Nat)
    (span : Span) : Except Diagnostic (FunctionId × List Ty × Ty) := do
  let symbol ← resolve tree scope name nameSpan
  match symbol.storage, symbol.ty with
  | .function id, .func params ret =>
      if count = params.length then return (id, params, ret)
      else
        throw
          (.mismatch s!"function '{name}' expects {params.length} argument(s), got {count}" span)
  | _, _ => throw (.mismatch s!"'{name}' is not a function" nameSpan)

def arityFits (signature : Signature) (count : Nat) : Bool :=
  if signature.variadic then signature.params.length ≤ count else count = signature.params.length

def arityMismatch (signature : Signature) (count : Nat) (span : Span) : Diagnostic :=
  let least := if signature.variadic then "at least " else ""
  let wanted := signature.params.length
  .mismatch s!"builtin '{signature.name}' expects {least}{wanted} argument(s), got {count}" span

def builtinArgument (signature : Signature) (position : Nat) (param? : Option ParamKind)
    (arg : Term) : Except Diagnostic Term :=
  let refuse (wanted : String) : Except Diagnostic Term :=
    .error
      (.mismatch
        s!"argument {position + 1} of '{signature.name}' must be {wanted}, not {arg.ty.text}"
        arg.span)
  match param? with
  | some (.num kind) =>
      if (arithKind? arg.ty).isSome then .ok (convert arg kind) else refuse kind.name
  | some .str => if arg.ty = .str then .ok arg else refuse "string"
  | some .array =>
      match arg.ty with
      | .array _ => .ok arg
      | _ => refuse "array"
  | none =>
      match arg.ty with
      | .bool => .ok (convert arg .i32)
      | .num _ => .ok arg
      | .str => .ok arg
      | _ => refuse "number or string"

def builtinArguments (signature : Signature) :
    Nat → List ParamKind → List Term → Except Diagnostic (List Term)
  | _, _, [] => .ok []
  | position, params, arg :: args => do
      let first ← builtinArgument signature position params.head? arg
      return first :: (← builtinArguments signature (position + 1) params.tail args)

/-- The one argument of `sync_r`: the variable `r` that the call can see, if there is one. -/
def syncArguments (tree : ScopeTree) (scope : ScopeId) (span : Span) :
    Except Diagnostic (List Term) :=
  match tree.resolve? scope "r" with
  | none => .ok []
  | some symbol =>
      let usable :=
        match symbol.ty with
        | .struct _ members =>
            (Ty.memberAt? "isPow" members).isSome && (Ty.memberAt? "isBounty" members).isSome
        | .array (.num kind) => kind.isInteger
        | _ => false
      match usable, symbol.storage with
      | true, .reference slot => .ok [.mk symbol.ty span (.load (.whole slot))]
      | _, _ =>
          .error
            (.mismatch
              ("sync_r needs 'r' to be a struct with isPow and isBounty or an integer array, not " ++
                symbol.ty.text)
              span)

/-! ### Expressions -/

def conditionTerm (term : Term) : Except Diagnostic Term :=
  if isCondition term.ty then .ok term
  else
    .error (.mismatch s!"condition must be numeric or bool, not {term.ty.text}" term.span)

mutual

def lowerExpr (scope : ScopeId) : Expr → ScopeTree → Except Diagnostic Term
  | .int span literal, _ =>
      let kind := literalKind literal
      .ok (.literal ((Value.u64 literal.value).convert kind) (.num kind) span)
  | .float span value single, _ =>
      if single then .ok (.literal (.f32 (.ofFloat value.toFloat32)) (.num .f32) span)
      else .ok (.literal (.f64 value) (.num .f64) span)
  | .char span code, _ => .ok (.literal (.i32 code.toInt32) (.num .i32) span)
  | .str span text, _ => .ok (.literal (.str text) .str span)
  | .bool span value, _ => .ok (.literal (.bool value) .bool span)
  | .ident span name, tree => identTerm tree scope name span
  | .binary span op left right, tree => do
      let left ← lowerExpr scope left tree
      let right ← lowerExpr scope right tree
      binary op left right span
  | .assign span none target value, tree => do
      let (place, ty) ← lowerPlace scope target tree
      match ty with
      | .array _ => throw (.invalidTarget "arrays cannot be assigned" target.span)
      | _ =>
          let value ← lowerExpr scope value tree
          return .mk ty span (.assign place (← storable value ty))
  | .assign span (some op) target value, tree => do
      let rhs ← lowerExpr scope value tree
      let place ← lowerPlace scope target tree
      updateTerm op place target.span rhs false span
  | .unary span op operand, tree => do
      let operand ← lowerExpr scope operand tree
      unary op operand span
  | .incDec span increment before operand, tree => do
      let place ← lowerPlace scope operand tree
      let op := if increment then BinaryOp.add else BinaryOp.sub
      updateTerm op place operand.span (.literal (.i32 1) (.num .i32) span) (!before) span
  | .call span name nameSpan args, tree =>
      match Builtin.find? name with
      | some builtin => do
          let signature := builtin.signature
          if !arityFits signature args.length then
            throw (arityMismatch signature args.length span)
          else if builtin = .syncR then
            return .mk signature.ret span (.builtin builtin (← syncArguments tree scope span))
          else
            let args ← lowerExprs scope args tree
            let args ← builtinArguments signature 0 (signature.params.map Prod.snd) args
            return .mk signature.ret span (.builtin builtin args)
      | none => do
          let (id, params, ret) ← callee tree scope name nameSpan args.length span
          let args ← lowerExprs scope args tree
          return .mk ret span (.call id (← arguments args params))
  | .subscript span base index, tree =>
      loadTerm span <$> elementPlace tree scope base (lowerExpr scope index tree)
  | .field span owner name, tree => loadTerm span <$> fieldPlace tree scope owner name span
  | .conditional span cond yes no, tree => do
      let cond ← conditionTerm (← lowerExpr scope cond tree)
      let yes ← lowerExpr scope yes tree
      let no ← lowerExpr scope no tree
      let (yes, no, ty) ← unify yes no span
      return .mk ty span (.conditional cond yes no)
  | .cast span spec operand, tree => do
      let (target, inner) ← resolveSpecifier scope none span spec tree
      let operand ← lowerExpr scope operand inner
      cast operand target span
  | .comma span left right, tree => do
      let left ← lowerExpr scope left tree
      let right ← lowerExpr scope right tree
      return .mk right.ty span (.comma left right)
termination_by structural expr => expr

def lowerExprs (scope : ScopeId) : List Expr → ScopeTree → Except Diagnostic (List Term)
  | [], _ => .ok []
  | first :: rest, tree => do
      let first ← lowerExpr scope first tree
      return first :: (← lowerExprs scope rest tree)
termination_by structural exprs => exprs

def lowerPlace (scope : ScopeId) : Expr → ScopeTree → Except Diagnostic (Place × Ty)
  | .ident span name, tree => identPlace tree scope name span
  | .subscript _ base index, tree =>
      elementPlace tree scope base (lowerExpr scope index tree)
  | .field span owner name, tree => fieldPlace tree scope owner name span
  | other, _ => throw (.invalidTarget "expression is not assignable" other.span)
termination_by structural expr => expr

end

def lowerCondition (scope : ScopeId) (expr : Expr) (tree : ScopeTree) : Except Diagnostic Term := do
  conditionTerm (← lowerExpr scope expr tree)

end MiniC.Lowering
