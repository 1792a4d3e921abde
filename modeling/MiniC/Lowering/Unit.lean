import MiniC.Lowering.Stmt

/-!
From the items of a source to a program.

Functions are numbered in the order of their first declaration; a prototype and
its definition share one number. The commands of global declarations form the
initialisation of the program. The first fault ends lowering.
-/

namespace MiniC.Lowering

structure State where
  tree : ScopeTree
  functions : Array Function
  init : List Command

def initialTree : ScopeTree :=
  let streams := Builtin.streams.foldl (fun tree (name, handle) =>
    match tree.defineConstant? ScopeTree.root name (.num .i32) (.i32 handle) with
    | some (_, tree) => tree
    | none => tree) ScopeTree.initial
  typeAliases.foldl (fun tree (name, spec) =>
    match primitive? spec with
    | some ty => tree.defineType ScopeTree.root name ty
    | none => tree) streams

def State.initial : State := ⟨initialTree, #[], []⟩

def paramType (param : Param) (tree : ScopeTree) : Except Diagnostic (Ty × ScopeTree) := do
  let (ty, tree) ← resolveSpecifier ScopeTree.root none param.span param.spec tree
  if param.isArray then
    match ty with
    | .num _ => return (.array ty, tree)
    | _ =>
        throw
          (.mismatch
            (s!"array parameter '{param.name}' must have a numeric element type, " ++
              s!"not {ty.text}")
            param.span)
  else if ty = .void then
    throw (.mismatch s!"parameter '{param.name}' declared void" param.span)
  else return (ty, tree)

def paramTypes : List Param → ScopeTree → Except Diagnostic (List Ty × ScopeTree)
  | [], tree => .ok ([], tree)
  | param :: rest, tree => do
      let (ty, tree) ← paramType param tree
      let (tys, tree) ← paramTypes rest tree
      return (ty :: tys, tree)

/-- The number of a function, which is new unless the function was declared before with the same
type. -/
def declareFunction (definition : FunctionDef) (params : List Ty) (ret : Ty) (state : State) :
    Except Diagnostic (FunctionId × State) :=
  let name := definition.name
  let ty := Ty.func params ret
  let duplicate : Except Diagnostic (FunctionId × State) :=
    .error (.duplicate name definition.span)
  match state.tree.resolveLocal? ScopeTree.root name with
  | some symbol =>
      match symbol.storage with
      | .function id =>
          if symbol.ty ≠ ty then
            .error
              (.mismatch s!"conflicting types for '{name}': {symbol.ty.text} vs {ty.text}"
                definition.span)
          else
            let defined := (state.functions[id]?.bind Function.body?).isSome
            if defined && definition.body?.isSome then duplicate else .ok (id, state)
      | _ => duplicate
  | none =>
      let id := state.functions.size
      match state.tree.defineFunction? ScopeTree.root name ty id with
      | none => duplicate
      | some (_, tree) =>
          let function : Function := ⟨name, params, ret, ⟨0, 0⟩, none, definition.span⟩
          .ok (id, { state with tree, functions := state.functions.push function })

/-- The command that stores an argument in its parameter: structs are copied, arrays are shared. -/
def storeArgument (index : Nat) (ty : Ty) (slot : Slot) (span : Span) : Command :=
  let argument := Term.mk ty span (.argument index)
  match ty with
  | .struct _ _ => .bind slot (.mk ty span (.copy argument))
  | .array _ => .bind slot argument
  | _ => .expr (.mk ty span (.assign (.scalar slot) argument))

/-- The commands that store the arguments from an index on. A parameter without a name takes no
slot. -/
def storeArguments (scope : ScopeId) :
    Nat → List Param → List Ty → ScopeTree → Except Diagnostic (List Command × ScopeTree)
  | index, param :: params, ty :: tys, tree => do
      if param.name.isEmpty then storeArguments scope (index + 1) params tys tree
      else
        let (slot, tree) ← defineSlot tree scope param.name ty param.span
        let command := storeArgument index ty slot param.span
        let (commands, tree) ← storeArguments scope (index + 1) params tys tree
        return (command :: commands, tree)
  | _, _, _, tree => .ok ([], tree)

def lowerFunction (definition : FunctionDef) (state : State) : Except Diagnostic State := do
  let (ret, tree) ←
    resolveSpecifier ScopeTree.root none definition.span definition.returns state.tree
  let (params, tree) ← paramTypes definition.params tree
  let (id, state) ← declareFunction definition params ret { state with tree }
  match definition.body? with
  | none => return state
  | some body =>
      let (scope, tree) := state.tree.functionScope ScopeTree.root
      let (prologue, tree) ← storeArguments scope 0 definition.params params tree
      let (body, tree) ← lowerStmts ⟨ret, false⟩ scope body tree
      let functions := state.functions.modify id fun function =>
        { function with
          layout := tree.layout scope
          body? := some (.block (prologue ++ body))
          span := definition.span }
      return { state with tree, functions }

/-! ### The whole source -/

def lowerItem (item : Item) (state : State) : Except Diagnostic State :=
  match item with
  | .function definition => lowerFunction definition state
  | .declaration declaration => do
      let (commands, tree) ← lowerDeclaration ScopeTree.root declaration state.tree
      return { state with tree, init := state.init ++ commands }

def lowerItems : List Item → State → Except Diagnostic State
  | [], state => .ok state
  | item :: rest, state => do lowerItems rest (← lowerItem item state)

def mainFunction? (tree : ScopeTree) : Option FunctionId :=
  match tree.resolve? ScopeTree.root "main" with
  | some symbol =>
      match symbol.storage with
      | .function id => some id
      | _ => none
  | none => none

end MiniC.Lowering

namespace MiniC

/-- The program of a list of items, or the first fault in it. -/
def lower (items : List Item) : Except Diagnostic Program := do
  let state ← Lowering.lowerItems items .initial
  return {
    functions := state.functions
    globals := state.tree.layout ScopeTree.root
    init := state.init
    main? := Lowering.mainFunction? state.tree }

end MiniC
