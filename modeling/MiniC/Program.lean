import MiniC.Span
import MiniC.Scope
import MiniC.Builtin
import MiniC.Operator.Arithmetic

/-!
Typed programs.

A term carries the one type it was resolved to and the span it came from; names
are resolved to slots and functions, and every conversion is a node of its own.
-/

namespace MiniC

mutual

/-- An expression with its type and its place in the source. -/
inductive Term where
  | mk (ty : Ty) (span : Span) (node : Node)

inductive Node where
  | literal (value : Value)
  | load (place : Place)
  | argument (index : Nat)
  /-- Writes, and yields what was written. -/
  | assign (place : Place) (value : Term)
  /-- Combines a place with an operand, the place being found once. The old content is converted to
  `operand` first and the result to the type of the term. -/
  | update (place : Place) (fn : BinaryFn) (operand : Kind) (rhs : Term) (yieldsOld : Bool)
  | convert (kind : Kind) (value : Term)
  /-- Number to truth value. -/
  | truth (value : Term)
  | binary (fn : BinaryFn) (left right : Term)
  | unary (fn : UnaryFn) (operand : Term)
  /-- `&&` or `||`: the right side is evaluated only if the left one does not decide. -/
  | logical (isAnd : Bool) (left right : Term)
  | conditional (cond yes no : Term)
  | comma (first second : Term)
  | call (function : FunctionId) (args : List Term)
  | builtin (builtin : Builtin) (args : List Term)
  /-- A copy in storage of its own. -/
  | copy (value : Term)

/-- A location that a term reads or writes. -/
inductive Place where
  | scalar (slot : Slot)
  /-- A whole array or struct. -/
  | whole (slot : Slot)
  | element (array : Slot) (index : Term)
  | field (owner : Slot) (index : Nat)

end

namespace Term

def ty : Term → Ty
  | mk ty _ _ => ty

def span : Term → Span
  | mk _ span _ => span

def node : Term → Node
  | mk _ _ node => node

def withTy (ty : Ty) : Term → Term
  | mk _ span node => mk ty span node

def literal (value : Value) (ty : Ty) (span : Span) : Term := mk ty span (.literal value)

instance : Inhabited Term := ⟨literal .void .void ⟨0, 0⟩⟩

end Term

/-- Statements. -/
inductive Command where
  | expr (term : Term)
  | block (body : List Command)
  | branch (cond : Term) (yes : Command) (no : Option Command)
  /-- The step runs after the body and after `cont`. -/
  | whileLoop (cond : Term) (body : Command) (step : Option Term)
  | doLoop (body : Command) (cond : Term)
  | brk
  | cont
  | ret (value : Option Term)
  /-- Puts a new array of zeros in a reference slot. -/
  | newArray (slot : Slot) (kind : Kind) (length : Term)
  /-- Puts a new struct in a reference slot. -/
  | newStruct (slot : Slot) (name : String) (members : List (String × Ty))
  /-- Puts an existing array or struct in a reference slot. -/
  | bind (slot : Slot) (value : Term)
deriving Inhabited

structure Function where
  name : String
  params : List Ty
  ret : Ty
  layout : Layout
  /-- Absent for a prototype without a definition. -/
  body? : Option Command
  span : Span
deriving Inhabited

def Function.ty (function : Function) : Ty := .func function.params function.ret

structure Program where
  functions : Array Function
  globals : Layout
  /-- Initialisation of the global variables, in source order. -/
  init : List Command
  main? : Option FunctionId

end MiniC
