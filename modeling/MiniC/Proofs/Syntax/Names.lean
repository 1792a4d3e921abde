import MiniC.Syntax

/-!
The names of variables and functions in a source.

Renaming variables reaches identifiers, declared variables and parameters that
have a name. Names of functions, types and members stay. A mention is a place
where the name of a variable or of a function stands.
-/

namespace MiniC

inductive Mention where
  | var (name : String)
  /-- A function that is declared. -/
  | function (name : String)
  /-- A function that is called. -/
  | call (name : String)
deriving DecidableEq

def Mention.name : Mention → String
  | .var name | .function name | .call name => name

namespace Expr

mutual

def rename (map : String → String) : Expr → Expr
  | int span literal => int span literal
  | float span value single => float span value single
  | char span code => char span code
  | str span text => str span text
  | bool span value => bool span value
  | ident span name => ident span (map name)
  | binary span op left right => binary span op (left.rename map) (right.rename map)
  | assign span op target value => assign span op (target.rename map) (value.rename map)
  | unary span op operand => unary span op (operand.rename map)
  | incDec span increment before operand => incDec span increment before (operand.rename map)
  | call span name nameSpan args => call span name nameSpan (renameAll map args)
  | subscript span base index => subscript span (base.rename map) (index.rename map)
  | field span owner name => field span (owner.rename map) name
  | conditional span cond yes no =>
      conditional span (cond.rename map) (yes.rename map) (no.rename map)
  | cast span spec operand => cast span spec (operand.rename map)
  | comma span left right => comma span (left.rename map) (right.rename map)
termination_by structural expr => expr

def renameAll (map : String → String) : List Expr → List Expr
  | [] => []
  | first :: rest => first.rename map :: renameAll map rest
termination_by structural exprs => exprs

end

mutual

def mentions : Expr → List Mention
  | int _ _ | float _ _ _ | char _ _ | str _ _ | bool _ _ => []
  | ident _ name => [.var name]
  | binary _ _ left right => left.mentions ++ right.mentions
  | assign _ _ target value => target.mentions ++ value.mentions
  | unary _ _ operand => operand.mentions
  | incDec _ _ _ operand => operand.mentions
  | call _ name _ args => .call name :: mentionsAll args
  | subscript _ base index => base.mentions ++ index.mentions
  | field _ owner _ => owner.mentions
  | conditional _ cond yes no => cond.mentions ++ (yes.mentions ++ no.mentions)
  | cast _ _ operand => operand.mentions
  | comma _ left right => left.mentions ++ right.mentions
termination_by structural expr => expr

def mentionsAll : List Expr → List Mention
  | [] => []
  | first :: rest => first.mentions ++ mentionsAll rest
termination_by structural exprs => exprs

end

mutual

theorem rename_id : ∀ expr : Expr, expr.rename id = expr
  | int _ _ | float _ _ _ | char _ _ | str _ _ | bool _ _ | ident _ _ => rfl
  | binary _ _ left right => by rw [rename, left.rename_id, right.rename_id]
  | assign _ _ target value => by rw [rename, target.rename_id, value.rename_id]
  | unary _ _ operand => by rw [rename, operand.rename_id]
  | incDec _ _ _ operand => by rw [rename, operand.rename_id]
  | call _ _ _ args => by rw [rename, renameAll_id args]
  | subscript _ base index => by rw [rename, base.rename_id, index.rename_id]
  | field _ owner _ => by rw [rename, owner.rename_id]
  | conditional _ cond yes no => by rw [rename, cond.rename_id, yes.rename_id, no.rename_id]
  | cast _ _ operand => by rw [rename, operand.rename_id]
  | comma _ left right => by rw [rename, left.rename_id, right.rename_id]
termination_by structural expr => expr

theorem renameAll_id : ∀ exprs : List Expr, renameAll id exprs = exprs
  | [] => rfl
  | first :: rest => by rw [renameAll, first.rename_id, renameAll_id rest]
termination_by structural exprs => exprs

end

theorem span_rename (map : String → String) (expr : Expr) : (expr.rename map).span = expr.span := by
  cases expr <;> rfl

theorem length_renameAll (map : String → String) (exprs : List Expr) :
    (renameAll map exprs).length = exprs.length := by
  induction exprs with
  | nil => rfl
  | cons first rest ih => simp only [renameAll, List.length_cons, ih]

theorem map_rename_id (expr? : Option Expr) : expr?.map (rename id) = expr? := by
  cases expr? with
  | none => rfl
  | some expr => rw [Option.map_some, expr.rename_id]

end Expr

/-! ### Declarations and statements -/

def Declarator.rename (map : String → String) (declarator : Declarator) : Declarator :=
  { declarator with
    name := map declarator.name
    length? := declarator.length?.map (Expr.rename map)
    init? := declarator.init?.map (Expr.rename map) }

def Declarator.mentions (declarator : Declarator) : List Mention :=
  .var declarator.name ::
    (declarator.length?.elim [] Expr.mentions ++ declarator.init?.elim [] Expr.mentions)

/-- The names that a type definition gives are names of types. -/
def Declaration.rename (map : String → String) (declaration : Declaration) : Declaration :=
  if declaration.isTypedef then declaration
  else { declaration with declarators := declaration.declarators.map (Declarator.rename map) }

def Declaration.mentions (declaration : Declaration) : List Mention :=
  if declaration.isTypedef then [] else declaration.declarators.flatMap Declarator.mentions

theorem Declarator.rename_id (declarator : Declarator) : declarator.rename id = declarator := by
  unfold rename
  rw [Expr.map_rename_id, Expr.map_rename_id]
  rfl

theorem Declaration.rename_id (declaration : Declaration) : declaration.rename id = declaration := by
  have same : declaration.declarators.map (Declarator.rename id) = declaration.declarators := by
    rw [funext Declarator.rename_id, List.map_id']
  unfold rename
  rw [same]
  split <;> rfl

def ForInit.rename (map : String → String) : ForInit → ForInit
  | .none => .none
  | .decl span declaration => .decl span (declaration.rename map)
  | .expr span value => .expr span (value.rename map)

def ForInit.mentions : ForInit → List Mention
  | .none => []
  | .decl _ declaration => declaration.mentions
  | .expr _ value => value.mentions

theorem ForInit.rename_id (init : ForInit) : init.rename id = init := by
  cases init with
  | none => rfl
  | decl span declaration => rw [rename, declaration.rename_id]
  | expr span value => rw [rename, value.rename_id]

namespace Stmt

mutual

def rename (map : String → String) : Stmt → Stmt
  | block span body => block span (renameAll map body)
  | expr span value => expr span (value.rename map)
  | decl span declaration => decl span (declaration.rename map)
  | branch span cond yes no =>
      branch span (cond.rename map) (yes.rename map) (renameElse map no)
  | whileLoop span cond body => whileLoop span (cond.rename map) (body.rename map)
  | doLoop span body cond => doLoop span (body.rename map) (cond.rename map)
  | forLoop span init cond step body =>
      forLoop span (init.rename map) (cond.map (Expr.rename map)) (step.map (Expr.rename map))
        (body.rename map)
  | ret span value => ret span (value.map (Expr.rename map))
  | brk span => brk span
  | cont span => cont span
  | empty span => empty span
termination_by structural stmt => stmt

def renameElse (map : String → String) : Option Stmt → Option Stmt
  | none => none
  | some stmt => some (stmt.rename map)
termination_by structural stmt => stmt

def renameAll (map : String → String) : List Stmt → List Stmt
  | [] => []
  | first :: rest => first.rename map :: renameAll map rest
termination_by structural stmts => stmts

end

mutual

def mentions : Stmt → List Mention
  | block _ body => mentionsAll body
  | expr _ value => value.mentions
  | decl _ declaration => declaration.mentions
  | branch _ cond yes no => cond.mentions ++ (yes.mentions ++ mentionsElse no)
  | whileLoop _ cond body => cond.mentions ++ body.mentions
  | doLoop _ body cond => body.mentions ++ cond.mentions
  | forLoop _ init cond step body =>
      init.mentions ++ (cond.elim [] Expr.mentions ++ (step.elim [] Expr.mentions ++ body.mentions))
  | ret _ value => value.elim [] Expr.mentions
  | brk _ | cont _ | empty _ => []
termination_by structural stmt => stmt

def mentionsElse : Option Stmt → List Mention
  | none => []
  | some stmt => stmt.mentions
termination_by structural stmt => stmt

def mentionsAll : List Stmt → List Mention
  | [] => []
  | first :: rest => first.mentions ++ mentionsAll rest
termination_by structural stmts => stmts

end

mutual

theorem rename_id : ∀ stmt : Stmt, stmt.rename id = stmt
  | block _ body => by rw [rename, renameAll_id body]
  | expr _ value => by rw [rename, value.rename_id]
  | decl _ declaration => by rw [rename, declaration.rename_id]
  | branch _ cond yes no => by rw [rename, cond.rename_id, yes.rename_id, renameElse_id no]
  | whileLoop _ cond body => by rw [rename, cond.rename_id, body.rename_id]
  | doLoop _ body cond => by rw [rename, body.rename_id, cond.rename_id]
  | forLoop _ init cond step body => by
      rw [rename, init.rename_id, Expr.map_rename_id, Expr.map_rename_id, body.rename_id]
  | ret _ value => by rw [rename, Expr.map_rename_id]
  | brk _ | cont _ | empty _ => rfl
termination_by structural stmt => stmt

theorem renameElse_id : ∀ stmt : Option Stmt, renameElse id stmt = stmt
  | none => rfl
  | some stmt => by rw [renameElse, stmt.rename_id]
termination_by structural stmt => stmt

theorem renameAll_id : ∀ stmts : List Stmt, renameAll id stmts = stmts
  | [] => rfl
  | first :: rest => by rw [renameAll, first.rename_id, renameAll_id rest]
termination_by structural stmts => stmts

end

end Stmt

/-- A parameter that has no name is given none. -/
def Param.rename (map : String → String) (param : Param) : Param :=
  { param with name := if param.name.isEmpty then param.name else map param.name }

def FunctionDef.rename (map : String → String) (definition : FunctionDef) : FunctionDef :=
  { definition with
    params := definition.params.map (Param.rename map)
    body? := definition.body?.map (Stmt.renameAll map) }

def FunctionDef.mentions (definition : FunctionDef) : List Mention :=
  .function definition.name ::
    (definition.params.map (fun param => .var param.name) ++
      definition.body?.elim [] Stmt.mentionsAll)

def Item.rename (map : String → String) : Item → Item
  | function definition => function (definition.rename map)
  | declaration given => declaration (given.rename map)

def Item.mentions : Item → List Mention
  | function definition => definition.mentions
  | declaration given => given.mentions

end MiniC
