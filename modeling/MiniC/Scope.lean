import MiniC.Value

/-!
Lexical scopes.

Scopes form a tree and are numbered in the order of their creation, the root
being zero; so a scope's parent has a smaller number. Every scope allocates from
one frame: the root from the global frame, a function scope from a frame of its
own, a block from the frame of the scope around it. Slots are never given out
twice within a frame.
-/

namespace MiniC

inductive Region where
  | global
  | activation
deriving DecidableEq, Repr

structure Slot where
  region : Region
  index : Nat
deriving DecidableEq, Repr

/-- How many slots a frame has: for scalars, and for references to arrays and structs. -/
structure Layout where
  scalars : Nat
  references : Nat
deriving DecidableEq, Repr, Inhabited

abbrev FunctionId := Nat

inductive Storage where
  | scalar (slot : Slot)
  | reference (slot : Slot)
  | function (id : FunctionId)
  /-- A fixed value that cannot be assigned. -/
  | constant (value : Value)

structure Symbol where
  name : String
  ty : Ty
  storage : Storage

abbrev ScopeId := Nat

structure Scope where
  parent? : Option ScopeId
  /-- Number of the frame it allocates from. -/
  frame : Nat
  symbols : List (String × Symbol)
  types : List (String × Ty)
deriving Inhabited

structure ScopeTree where
  scopes : Array Scope
  layouts : Array Layout

namespace ScopeTree

def root : ScopeId := 0

def globalFrame : Nat := 0

def initial : ScopeTree := ⟨#[⟨none, globalFrame, [], []⟩], #[⟨0, 0⟩]⟩

def scopeAt (tree : ScopeTree) (id : ScopeId) : Scope := (tree.scopes[id]?).getD default

def layout (tree : ScopeTree) (id : ScopeId) : Layout :=
  (tree.layouts[(tree.scopeAt id).frame]?).getD default

def isGlobal (tree : ScopeTree) (id : ScopeId) : Bool :=
  (tree.scopeAt id).frame == globalFrame

def region (tree : ScopeTree) (id : ScopeId) : Region :=
  if tree.isGlobal id then .global else .activation

def addScope (tree : ScopeTree) (parent : ScopeId) (frame : Nat) : ScopeId × ScopeTree :=
  (tree.scopes.size, { tree with scopes := tree.scopes.push ⟨some parent, frame, [], []⟩ })

def child (tree : ScopeTree) (parent : ScopeId) : ScopeId × ScopeTree :=
  tree.addScope parent (tree.scopeAt parent).frame

def functionScope (tree : ScopeTree) (parent : ScopeId) : ScopeId × ScopeTree :=
  let frame := tree.layouts.size
  addScope { tree with layouts := tree.layouts.push ⟨0, 0⟩ } parent frame

def resolveLocal? (tree : ScopeTree) (id : ScopeId) (name : String) : Option Symbol :=
  (tree.scopeAt id).symbols.lookup name

/-- What the nearest enclosing scope that has it says of a name. -/
def nearest? {α : Type} (tree : ScopeTree) (find : Scope → Option α) (id : ScopeId) : Option α :=
  let scope := tree.scopeAt id
  match find scope with
  | some found => some found
  | none =>
      match scope.parent? with
      | none => none
      | some parent => if parent < id then nearest? tree find parent else none
termination_by id

def resolve? (tree : ScopeTree) (id : ScopeId) (name : String) : Option Symbol :=
  tree.nearest? (fun scope => scope.symbols.lookup name) id

def resolveType? (tree : ScopeTree) (id : ScopeId) (name : String) : Option Ty :=
  tree.nearest? (fun scope => scope.types.lookup name) id

def insert? (tree : ScopeTree) (id : ScopeId) (symbol : Symbol) : Option (Symbol × ScopeTree) :=
  if (tree.resolveLocal? id symbol.name).isSome then none
  else
    some (symbol,
      { tree with
        scopes := tree.scopes.modify id fun scope =>
          { scope with symbols := (symbol.name, symbol) :: scope.symbols } })

def nextSlot (region : Region) (ty : Ty) (layout : Layout) : Storage × Layout :=
  if ty.isReference then
    (.reference ⟨region, layout.references⟩, { layout with references := layout.references + 1 })
  else (.scalar ⟨region, layout.scalars⟩, { layout with scalars := layout.scalars + 1 })

def define? (tree : ScopeTree) (id : ScopeId) (name : String) (ty : Ty) :
    Option (Symbol × ScopeTree) :=
  let (storage, layout) := nextSlot (tree.region id) ty (tree.layout id)
  let frame := (tree.scopeAt id).frame
  (tree.insert? id ⟨name, ty, storage⟩).map fun (symbol, tree) =>
    (symbol, { tree with layouts := tree.layouts.setIfInBounds frame layout })

def defineFunction? (tree : ScopeTree) (id : ScopeId) (name : String) (ty : Ty)
    (function : FunctionId) : Option (Symbol × ScopeTree) :=
  tree.insert? id ⟨name, ty, .function function⟩

def defineConstant? (tree : ScopeTree) (id : ScopeId) (name : String) (ty : Ty) (value : Value) :
    Option (Symbol × ScopeTree) :=
  tree.insert? id ⟨name, ty, .constant value⟩

def defineType (tree : ScopeTree) (id : ScopeId) (name : String) (ty : Ty) : ScopeTree :=
  { tree with
    scopes := tree.scopes.modify id fun scope =>
      { scope with types := (name, ty) :: scope.types } }

end ScopeTree
end MiniC
