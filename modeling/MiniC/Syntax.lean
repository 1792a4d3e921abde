import MiniC.Token

/-!
Syntax trees.

Nothing is resolved here: identifiers are plain names, and types are the
declaration specifiers as written. Every node carries its span; a parenthesised
expression is the inner expression with the span of the parentheses.
-/

namespace MiniC

mutual

inductive Specifier where
  | int
  | unsignedInt
  | long
  | unsignedLong
  | float
  | double
  | bool
  | void
  /-- A type name or a struct tag. -/
  | named (name : String)
  /-- A struct with its member list. -/
  | struct (tag : Option String) (members : List Member) (span : Span)

inductive Member where
  | mk (spec : Specifier) (name : String) (isArray : Bool) (span : Span)

end

instance : Inhabited Specifier := ⟨.void⟩

inductive Expr where
  | int (span : Span) (literal : IntLiteral)
  | float (span : Span) (value : Float) (single : Bool)
  | char (span : Span) (code : UInt32)
  | str (span : Span) (text : String)
  | bool (span : Span) (value : Bool)
  | ident (span : Span) (name : String)
  | binary (span : Span) (op : BinaryOp) (left right : Expr)
  /-- Plain assignment without an operator, compound assignment with one. -/
  | assign (span : Span) (op : Option BinaryOp) (target value : Expr)
  | unary (span : Span) (op : UnaryOp) (operand : Expr)
  /-- `++` or `--`, written before or after its operand. -/
  | incDec (span : Span) (increment before : Bool) (operand : Expr)
  | call (span : Span) (name : String) (nameSpan : Span) (args : List Expr)
  | subscript (span : Span) (base index : Expr)
  | field (span : Span) (owner : Expr) (name : String)
  | conditional (span : Span) (cond yes no : Expr)
  | cast (span : Span) (spec : Specifier) (operand : Expr)
  | comma (span : Span) (left right : Expr)
deriving Inhabited

namespace Expr

def span : Expr → Span
  | int span _ => span
  | float span _ _ => span
  | char span _ => span
  | str span _ => span
  | bool span _ => span
  | ident span _ => span
  | binary span _ _ _ => span
  | assign span _ _ _ => span
  | unary span _ _ => span
  | incDec span _ _ _ => span
  | call span _ _ _ => span
  | subscript span _ _ => span
  | field span _ _ => span
  | conditional span _ _ _ => span
  | cast span _ _ => span
  | comma span _ _ => span

def withSpan (span : Span) : Expr → Expr
  | int _ literal => int span literal
  | float _ value single => float span value single
  | char _ code => char span code
  | str _ text => str span text
  | bool _ value => bool span value
  | ident _ name => ident span name
  | binary _ op left right => binary span op left right
  | assign _ op target value => assign span op target value
  | unary _ op operand => unary span op operand
  | incDec _ increment before operand => incDec span increment before operand
  | call _ name nameSpan args => call span name nameSpan args
  | subscript _ base index => subscript span base index
  | field _ owner name => field span owner name
  | conditional _ cond yes no => conditional span cond yes no
  | cast _ spec operand => cast span spec operand
  | comma _ left right => comma span left right

@[simp]
theorem span_withSpan (place : Span) (expr : Expr) : (expr.withSpan place).span = place := by
  cases expr <;> rfl

end Expr

structure Declarator where
  name : String
  length? : Option Expr
  init? : Option Expr
  span : Span
deriving Inhabited

structure Declaration where
  isTypedef : Bool
  spec : Specifier
  declarators : List Declarator
  span : Span
deriving Inhabited

inductive ForInit where
  | none
  | decl (span : Span) (declaration : Declaration)
  | expr (span : Span) (expr : Expr)

inductive Stmt where
  | block (span : Span) (body : List Stmt)
  | expr (span : Span) (expr : Expr)
  | decl (span : Span) (declaration : Declaration)
  | branch (span : Span) (cond : Expr) (yes : Stmt) (no : Option Stmt)
  | whileLoop (span : Span) (cond : Expr) (body : Stmt)
  | doLoop (span : Span) (body : Stmt) (cond : Expr)
  | forLoop (span : Span) (init : ForInit) (cond step : Option Expr) (body : Stmt)
  | ret (span : Span) (value : Option Expr)
  | brk (span : Span)
  | cont (span : Span)
  | empty (span : Span)
deriving Inhabited

def Stmt.span : Stmt → Span
  | block span _ => span
  | expr span _ => span
  | decl span _ => span
  | branch span _ _ _ => span
  | whileLoop span _ _ => span
  | doLoop span _ _ => span
  | forLoop span _ _ _ _ => span
  | ret span _ => span
  | brk span => span
  | cont span => span
  | empty span => span

structure Param where
  spec : Specifier
  name : String
  isArray : Bool
  span : Span
deriving Inhabited

structure FunctionDef where
  returns : Specifier
  name : String
  params : List Param
  body? : Option (List Stmt)
  span : Span
deriving Inhabited

inductive Item where
  | function (definition : FunctionDef)
  | declaration (declaration : Declaration)
deriving Inhabited

/-- Type names that every source may use without declaring them, and what they stand for. -/
def typeAliases : List (String × Specifier) :=
  [("uint", .unsignedInt), ("ulong", .unsignedLong), ("int32_t", .int), ("uint32_t", .unsignedInt),
    ("int64_t", .long), ("uint64_t", .unsignedLong), ("size_t", .unsignedLong)]

end MiniC
