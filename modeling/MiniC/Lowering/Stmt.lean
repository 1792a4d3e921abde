import MiniC.Lowering.Expr

/-!
From declarations and statements to commands.

A declaration extends the scope it stands in. Blocks, branches and loop bodies
open scopes of their own; a `for` loop becomes its first part followed by a loop
with a step.
-/

namespace MiniC.Lowering

def defineSlot (tree : ScopeTree) (scope : ScopeId) (name : String) (ty : Ty) (span : Span) :
    Except Diagnostic (Slot × ScopeTree) :=
  match tree.define? scope name ty with
  | none => .error (.duplicate name span)
  | some (symbol, tree) =>
      match symbol.storage with
      | .scalar slot => .ok (slot, tree)
      | .reference slot => .ok (slot, tree)
      | _ => .error (.mismatch s!"'{name}' is not a variable" span)

def lowerArray (scope : ScopeId) (base : Ty) (declarator : Declarator) (length : Expr)
    (tree : ScopeTree) : Except Diagnostic (List Command × ScopeTree) := do
  let name := declarator.name
  let span := declarator.span
  match base with
  | .num kind =>
      if declarator.init?.isSome then
        throw (.invalidTarget s!"array '{name}' cannot be initialized" span)
      else
        let length ← asIndex s!"size of array '{name}'" (← lowerExpr scope length tree)
        let (slot, tree) ← defineSlot tree scope name (.array base) span
        return ([.newArray slot kind length], tree)
  | _ =>
      throw
        (.mismatch s!"array '{name}' must have a numeric element type, not {base.text}" span)

def lowerStructVariable (scope : ScopeId) (base : Ty) (structName : String)
    (members : List (String × Ty)) (declarator : Declarator) (tree : ScopeTree) :
    Except Diagnostic (List Command × ScopeTree) := do
  let span := declarator.span
  let init? ← declarator.init?.mapM fun init => lowerExpr scope init tree
  let (slot, tree) ← defineSlot tree scope declarator.name base span
  let create := Command.newStruct slot structName members
  match init? with
  | none => return ([create], tree)
  | some init =>
      if init.ty = base then
        return ([create, .expr (.mk base span (.assign (.whole slot) init))], tree)
      else
        throw (.mismatch s!"cannot initialize {base.text} from {init.ty.text}" init.span)

def lowerScalar (scope : ScopeId) (base : Ty) (declarator : Declarator) (tree : ScopeTree) :
    Except Diagnostic (List Command × ScopeTree) := do
  let span := declarator.span
  let value ←
    match declarator.init? with
    | some init => do coerce (← lowerExpr scope init tree) base
    | none => pure (.literal (.initial base) base span)
  let (slot, tree) ← defineSlot tree scope declarator.name base span
  return ([.expr (.mk base span (.assign (.scalar slot) value))], tree)

def lowerDeclarator (scope : ScopeId) (base : Ty) (declarator : Declarator) (tree : ScopeTree) :
    Except Diagnostic (List Command × ScopeTree) :=
  match declarator.length? with
  | some length => lowerArray scope base declarator length tree
  | none =>
      match base with
      | .struct name members => lowerStructVariable scope base name members declarator tree
      | _ => lowerScalar scope base declarator tree

def lowerDeclarators (scope : ScopeId) (base : Ty) :
    List Declarator → ScopeTree → Except Diagnostic (List Command × ScopeTree)
  | [], tree => .ok ([], tree)
  | declarator :: rest, tree => do
      if base = .void then
        throw (.mismatch s!"variable '{declarator.name}' declared void" declarator.span)
      let (commands, tree) ← lowerDeclarator scope base declarator tree
      let (others, tree) ← lowerDeclarators scope base rest tree
      return (commands ++ others, tree)

def defineTypes (scope : ScopeId) (base : Ty) :
    List Declarator → ScopeTree → Except Diagnostic ScopeTree
  | [], tree => .ok tree
  | declarator :: rest, tree =>
      if declarator.length?.isSome || declarator.init?.isSome then
        .error
          (.unsupported "typedef of arrays or with an initializer is not supported"
            declarator.span)
      else defineTypes scope base rest (tree.defineType scope declarator.name base)

/-- A struct without a tag takes its name from the first name of its type definition. -/
def lowerDeclaration (scope : ScopeId) (declaration : Declaration) (tree : ScopeTree) :
    Except Diagnostic (List Command × ScopeTree) := do
  let first? := declaration.declarators.head?.map Declarator.name
  let hint := if declaration.isTypedef then first? else none
  let (base, tree) ← resolveSpecifier scope hint declaration.span declaration.spec tree
  if declaration.isTypedef then
    return ([], ← defineTypes scope base declaration.declarators tree)
  else lowerDeclarators scope base declaration.declarators tree

/-! ### Statements -/

structure Context where
  /-- Return type of the function. -/
  ret : Ty
  inLoop : Bool

def Context.loop (context : Context) : Context := { context with inLoop := true }

def lowerReturn (context : Context) (scope : ScopeId) (value? : Option Expr) (span : Span)
    (tree : ScopeTree) : Except Diagnostic Command :=
  match value?, context.ret with
  | none, .void => .ok (.ret none)
  | some _, .void => .error (.mismatch "void function should not return a value" span)
  | none, ret =>
      .error (.mismatch s!"non-void function must return a value of type {ret.text}" span)
  | some value, ret => do
      let value ← coerce (← lowerExpr scope value tree) ret
      return .ret (some value)

def needLoop (context : Context) (word : String) (command : Command) (span : Span) :
    Except Diagnostic Command :=
  if context.inLoop then .ok command
  else .error (.mismatch s!"'{word}' statement not within a loop" span)

def lowerForInit (scope : ScopeId) (init : ForInit) (tree : ScopeTree) :
    Except Diagnostic (List Command × ScopeTree) :=
  match init with
  | .none => .ok ([], tree)
  | .decl _ declaration => do
      let (commands, tree) ← lowerDeclaration scope declaration tree
      return ([.block commands], tree)
  | .expr _ expr => do
      let term ← lowerExpr scope expr tree
      return ([.expr term], tree)

mutual

def lowerStmt (context : Context) (scope : ScopeId) :
    Stmt → ScopeTree → Except Diagnostic (Command × ScopeTree)
  | .block _ body, tree => do
      let (inner, tree) := tree.child scope
      let (body, tree) ← lowerStmts context inner body tree
      return (.block body, tree)
  | .expr _ expr, tree => do
      let term ← lowerExpr scope expr tree
      return (.expr term, tree)
  | .decl _ declaration, tree => do
      let (commands, tree) ← lowerDeclaration scope declaration tree
      return (.block commands, tree)
  | .branch _ cond yes no, tree => do
      let cond ← lowerCondition scope cond tree
      let (inner, tree) := tree.child scope
      let (yes, tree) ← lowerStmt context inner yes tree
      let (no, tree) ← lowerElse context scope no tree
      return (.branch cond yes no, tree)
  | .whileLoop _ cond body, tree => do
      let cond ← lowerCondition scope cond tree
      let (inner, tree) := tree.child scope
      let (body, tree) ← lowerStmt context.loop inner body tree
      return (.whileLoop cond body none, tree)
  | .doLoop _ body cond, tree => do
      let (inner, tree) := tree.child scope
      let (body, tree) ← lowerStmt context.loop inner body tree
      let cond ← lowerCondition scope cond tree
      return (.doLoop body cond, tree)
  | .forLoop span init cond step body, tree => do
      let (head, tree) := tree.child scope
      let (first, tree) ← lowerForInit head init tree
      let cond ←
        match cond with
        | some cond => lowerCondition head cond tree
        | none => pure (.literal (.bool true) .bool span)
      let step ← step.mapM fun step => lowerExpr head step tree
      let (inner, tree) := tree.child head
      let (body, tree) ← lowerStmt context.loop inner body tree
      return (.block (first ++ [.whileLoop cond body step]), tree)
  | .ret span value, tree => do
      let command ← lowerReturn context scope value span tree
      return (command, tree)
  | .brk span, tree => do
      let command ← needLoop context "break" .brk span
      return (command, tree)
  | .cont span, tree => do
      let command ← needLoop context "continue" .cont span
      return (command, tree)
  | .empty _, tree => .ok (.block [], tree)
termination_by structural stmt => stmt

def lowerElse (context : Context) (scope : ScopeId) :
    Option Stmt → ScopeTree → Except Diagnostic (Option Command × ScopeTree)
  | none, tree => .ok (none, tree)
  | some stmt, tree => do
      let (inner, tree) := tree.child scope
      let (command, tree) ← lowerStmt context inner stmt tree
      return (some command, tree)
termination_by structural stmt => stmt

def lowerStmts (context : Context) (scope : ScopeId) :
    List Stmt → ScopeTree → Except Diagnostic (List Command × ScopeTree)
  | [], tree => .ok ([], tree)
  | first :: rest, tree => do
      let (first, tree) ← lowerStmt context scope first tree
      let (rest, tree) ← lowerStmts context scope rest tree
      return (first :: rest, tree)
termination_by structural stmts => stmts

end

end MiniC.Lowering
