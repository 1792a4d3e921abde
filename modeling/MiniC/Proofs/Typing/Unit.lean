import MiniC.Lowering.Unit
import MiniC.Proofs.Typing.Stmt

/-!
Every accepted source becomes a well-formed program.

Items are lowered one after the other. A body that was lowered early knows only
the global variables before it, but stays well formed when more global variables
become known, so in the end every body is well formed for all of them.
-/

namespace MiniC

/-- Whether an item is a global declaration that calls a function that is not a builtin. -/
def Item.initCallsFunction : Item → Bool
  | .function _ => false
  | .declaration globals => globals.callsFunction

namespace Lowering

open ScopeTree Typing

section FunctionScope

variable {tree : ScopeTree} {setting inner : Setting} {vars more : Variables}

/-- A global symbol means the same inside every function. -/
theorem SymbolTyped.inside {symbol : Symbol} (typed : SymbolTyped setting vars symbol)
    (signatures : inner.signature? = setting.signature?)
    (globals : inner.globals = setting.globals) (allGlobal : vars.AllGlobal)
    (fewer : vars.Le more) :
    SymbolTyped inner more symbol := by
  unfold SymbolTyped at typed ⊢
  cases storage : symbol.storage with
  | scalar slot =>
      simp only [storage] at typed ⊢
      obtain ⟨known, has, scalar⟩ := typed
      refine ⟨fewer.scalar slot _ known, ?_, scalar⟩
      simpa only [Setting.HasScalar, allGlobal.scalar slot _ known, Setting.layout, globals]
        using has
  | reference slot =>
      simp only [storage] at typed ⊢
      obtain ⟨known, has, object⟩ := typed
      refine ⟨fewer.reference slot _ known, ?_, object⟩
      simpa only [Setting.HasReference, allGlobal.reference slot _ known, Setting.layout, globals]
        using has
  | function id =>
      simp only [storage] at typed ⊢
      rw [signatures]
      exact typed
  | constant value =>
      simp only [storage] at typed ⊢
      exact typed

/-- A new function scope agrees with any global variables that hold those of the root. -/
theorem Agrees.functionScope (agrees : Agrees setting vars tree root)
    (signatures : inner.signature? = setting.signature?)
    (globals : inner.globals = setting.globals) (region : inner.region = .activation)
    (allGlobal : vars.AllGlobal) (fewer : vars.Le more) (moreGlobal : more.AllGlobal) :
    Agrees inner more (tree.functionScope root).2 (tree.functionScope root).1 where
  inside := functionScope_inside tree root
  frameInside := by
    rw [functionScope_frame, functionScope_layouts_size]
    exact Nat.lt_succ_self _
  region_eq := by
    rw [region, ScopeTree.region, isGlobal, functionScope_frame]
    have nonempty := agrees.frameInside
    have other : (tree.layouts.size == globalFrame) = false := by
      rw [beq_eq_false_iff_ne, globalFrame]
      omega
    rw [other]
    rfl
  visible := by
    intro name symbol resolved
    rw [resolve?_functionScope agrees.inside] at resolved
    exact (agrees.visible name symbol resolved).inside signatures globals allGlobal fewer
  scalars := by
    intro slot ty known here
    rw [region, moreGlobal.scalar slot ty known] at here
    cases here
  references := by
    intro slot ty known here
    rw [region, moreGlobal.reference slot ty known] at here
    cases here
  types := agrees.types.functionScope root

end FunctionScope

def isParam (ty : Ty) : Bool := isCondition ty || ty.isObject

private theorem paramType_spec {param : Param} {tree after : ScopeTree} {ty : Ty}
    (accepted : paramType param tree = .ok (ty, after)) :
    SameSymbols tree after ∧ (tree.TypesDeclarable → isParam ty = true) := by
  unfold paramType at accepted
  obtain ⟨⟨base, middle⟩, resolved, rest⟩ := bind_eq_ok.mp accepted
  obtain ⟨same, declarable⟩ := resolveSpecifier_spec _ _ _ _ _ _ _ resolved
  simp only at rest
  split at rest
  · split at rest
    · cases rest
      exact ⟨same, fun _ => rfl⟩
    · cases rest
  · split at rest
    · cases rest
    · rename_i notVoid
      cases rest
      refine ⟨same, fun types => ?_⟩
      have known := declarable types
      cases ty with
      | num kind => rfl
      | bool => rfl
      | str => cases known
      | array element => cases known
      | func params ret => cases known
      | struct name members =>
          rw [isParam, Ty.isObject, known, Bool.or_true]
      | void => exact absurd rfl notVoid

private theorem paramTypes_spec {params : List Param} {tree after : ScopeTree} {tys : List Ty}
    (accepted : paramTypes params tree = .ok (tys, after)) :
    SameSymbols tree after ∧ (tree.TypesDeclarable → ∀ ty ∈ tys, isParam ty = true) := by
  induction params generalizing tree tys with
  | nil =>
      cases accepted
      refine ⟨.refl after, fun _ ty listed => ?_⟩
      cases listed
  | cons param rest ih =>
      rw [paramTypes] at accepted
      obtain ⟨⟨ty, middle⟩, first, continued⟩ := bind_eq_ok.mp accepted
      obtain ⟨⟨others, last⟩, loweredRest, built⟩ := bind_eq_ok.mp continued
      cases built
      obtain ⟨same, param⟩ := paramType_spec first
      obtain ⟨sameRest, params⟩ := ih loweredRest
      refine ⟨same.trans sameRest, fun types other listed => ?_⟩
      rcases List.mem_cons.mp listed with rfl | later
      · exact param types
      · exact params (same.types types) other later

section Arguments

variable {setting : Setting} {scope : ScopeId} {tree after : ScopeTree} {index : Nat}

private theorem storeArgument_lowers {name : String} {ty : Ty} {slot : Slot} {span : Span}
    (param : isParam ty = true) (position : setting.params[index]? = some ty)
    (defined : defineSlot tree scope name ty span = .ok (slot, after)) :
    Lowers setting scope tree after
      (fun vars out =>
        Command.Typed setting false vars (storeArgument index ty slot span) out) where
  grows := defineSlot_grows defined
  typed := by
    intro vars agrees room
    have argument : Term.Typed setting vars (.mk ty span (.argument index)) :=
      .natural (.argument position)
    have scalarCase (scalar : isCondition ty = true) : ∃ out,
        Command.Typed setting false vars
          (.expr (.mk ty span (.assign (.scalar slot) (.mk ty span (.argument index))))) out ∧
        Agrees setting out after scope := by
      obtain ⟨fresh, has, region, agreesAfter⟩ := agrees.defineScalar scalar defined room
      exact ⟨_, .declare argument scalar fresh has region, agreesAfter⟩
    have objectCase (object : ty.isObject = true) {value : Term} (sameTy : value.ty = ty)
        (typed : value.Typed setting vars) : ∃ out,
        Command.Typed setting false vars (.bind slot value) out ∧
        Agrees setting out after scope := by
      obtain ⟨fresh, has, region, agreesAfter⟩ := agrees.defineReference object defined room
      subst sameTy
      exact ⟨_, .bind typed object fresh has region, agreesAfter⟩
    cases ty with
    | num kind => exact scalarCase rfl
    | bool => exact scalarCase rfl
    | str => cases param
    | array element => exact objectCase param rfl argument
    | func params ret => cases param
    | struct structName members =>
        have object : (Ty.struct structName members).isObject = true := param
        exact objectCase object rfl (.natural (.copy argument object))
    | void => cases param

private theorem storeArguments_lowers {params : List Param} {tys : List Ty}
    {commands : List Command}
    (permitted : ∀ ty ∈ tys, isParam ty = true)
    (positions : ∀ offset ty, tys[offset]? = some ty → setting.params[index + offset]? = some ty)
    (inside : scope < tree.scopes.size)
    (accepted : storeArguments scope index params tys tree = .ok (commands, after)) :
    Lowers setting scope tree after
      (fun vars out => Commands.Typed setting false vars commands out) := by
  induction params generalizing index tys tree commands with
  | nil =>
      cases accepted
      exact .here fun vars _ => .nil
  | cons param rest ih =>
      cases tys with
      | nil =>
          cases accepted
          exact .here fun vars _ => .nil
      | cons ty others =>
          have later : ∀ other ∈ others, isParam other = true :=
            fun other listed => permitted other (List.mem_cons_of_mem ty listed)
          have behind (offset : Nat) (other : Ty) (found : others[offset]? = some other) :
              setting.params[index + 1 + offset]? = some other := by
            have shifted := positions (offset + 1) other found
            rwa [Nat.add_assoc, Nat.add_comm 1 offset]
          rw [storeArguments] at accepted
          split at accepted
          · exact ih later behind inside accepted
          · obtain ⟨⟨slot, middle⟩, defined, continued⟩ := bind_eq_ok.mp accepted
            obtain ⟨⟨stores, last⟩, loweredRest, built⟩ := bind_eq_ok.mp continued
            cases built
            have first := storeArgument_lowers (permitted ty List.mem_cons_self)
              (positions 0 ty rfl) defined
            have second := ih later behind (first.grows.inside inside) loweredRest
            exact first.trans inside second fun vars between out typed restTyped =>
              .cons typed restTyped

end Arguments

/-! ### Functions -/

def signatureIn? (functions : Array Function) (id : FunctionId) : Option (List Ty × Ty) :=
  functions[id]?.map fun function => (function.params, function.ret)

/-- What lowering never takes back: global slots and signatures. -/
structure Extends (before after : State) : Prop where
  layout_le : (before.tree.layout root).Le (after.tree.layout root)
  signature : ∀ id signature, signatureIn? before.functions id = some signature →
    signatureIn? after.functions id = some signature

theorem Extends.trans {first second third : State} (lower : Extends first second)
    (upper : Extends second third) : Extends first third :=
  ⟨lower.layout_le.trans upper.layout_le,
    fun id signature found => upper.signature id signature (lower.signature id signature found)⟩

/-- A tree whose root allocates from the global frame. -/
structure Rooted (tree : ScopeTree) : Prop where
  inside : root < tree.scopes.size
  frame : (tree.scopeAt root).frame = globalFrame
  layouts : 0 < tree.layouts.size
  types : tree.TypesDeclarable

theorem Rooted.grows {tree after : ScopeTree} {scope : ScopeId} (rooted : Rooted tree)
    (grown : Grows scope tree after) : Rooted after where
  inside := grown.inside rooted.inside
  frame := (grown.frame_eq root rooted.inside).trans rooted.frame
  layouts := by
    rw [grown.layouts_size]
    exact rooted.layouts
  types := grown.types rooted.types

/-- The root does not notice what happens inside a function. -/
structure SameRoot (before after : ScopeTree) : Prop where
  inside : root < after.scopes.size
  frame_eq : (after.scopeAt root).frame = (before.scopeAt root).frame
  layouts_le : before.layouts.size ≤ after.layouts.size
  layout_eq : after.layout root = before.layout root
  resolve_eq : ∀ name, after.resolve? root name = before.resolve? root name
  types : after.TypesDeclarable

private theorem Rooted.sameRoot {tree last : ScopeTree} (rooted : Rooted tree)
    (grown : Grows (tree.functionScope root).1 (tree.functionScope root).2 last) :
    SameRoot tree last := by
  have inside : root < (tree.functionScope root).2.scopes.size := by
    simp only [functionScope, addScope, Array.size_push]
    exact Nat.lt_succ_of_lt rooted.inside
  have frameInside : (tree.scopeAt root).frame < tree.layouts.size := by
    rw [rooted.frame]
    exact rooted.layouts
  refine
    { inside := grown.inside inside
      frame_eq := ?_
      layouts_le := ?_
      layout_eq := ?_
      resolve_eq := ?_
      types := grown.types (rooted.types.functionScope root) }
  · rw [grown.frame_eq root inside, scopeAt_functionScope_of_lt rooted.inside]
  · rw [grown.layouts_size, functionScope_layouts_size]
    exact Nat.le_succ _
  · rw [grown.other_layout_eq inside, layout_functionScope_of_lt rooted.inside frameInside]
    rw [scopeAt_functionScope_of_lt rooted.inside, functionScope_frame]
    exact Nat.ne_of_lt frameInside
  · intro name
    rw [grown.resolve?_eq inside rooted.inside, resolve?_functionScope_of_lt rooted.inside]

private theorem SameRoot.rooted {before after : ScopeTree} (same : SameRoot before after)
    (rooted : Rooted before) : Rooted after where
  inside := same.inside
  frame := same.frame_eq.trans rooted.frame
  layouts := Nat.lt_of_lt_of_le rooted.layouts same.layouts_le
  types := same.types

theorem SameRoot.agrees {setting : Setting} {vars : Variables} {before after : ScopeTree}
    (same : SameRoot before after) (agrees : Agrees setting vars before root) :
    Agrees setting vars after root :=
  agrees.transfer same.inside same.frame_eq same.layouts_le same.layout_eq same.resolve_eq
    same.types

/-- A function is declared: it was known with this type, or it gets the next number. -/
theorem declareFunction_eq_ok {definition : FunctionDef} {params : List Ty} {ret : Ty}
    {state after : State} {id : FunctionId}
    (accepted : declareFunction definition params ret state = .ok (id, after)) :
    (after = state ∧ ∃ symbol, state.tree.resolveLocal? root definition.name = some symbol ∧
      symbol.storage = .function id ∧ symbol.ty = .func params ret) ∨
    (id = state.functions.size ∧
      after.tree = state.tree.changed root
        (Scope.withSymbol ⟨definition.name, .func params ret, .function id⟩) state.tree.layouts ∧
      after.functions = state.functions.push
        ⟨definition.name, params, ret, ⟨0, 0⟩, none, definition.span⟩ ∧
      after.init = state.init) := by
  unfold declareFunction at accepted
  simp only at accepted
  split at accepted
  · rename_i symbol found
    split at accepted
    · rename_i known storage
      split at accepted
      · cases accepted
      · rename_i sameTy
        split at accepted
        · cases accepted
        · cases accepted
          exact Or.inl ⟨rfl, symbol, found, storage, Decidable.not_not.mp sameTy⟩
    · cases accepted
  · split at accepted
    · cases accepted
    · rename_i defined
      cases accepted
      obtain ⟨_, rfl⟩ := insert?_eq_some defined
      exact Or.inr ⟨rfl, rfl, rfl, rfl⟩

private theorem declareFunction_grows {definition : FunctionDef} {params : List Ty} {ret : Ty}
    {state after : State} {id : FunctionId}
    (accepted : declareFunction definition params ret state = .ok (id, after)) :
    Grows root state.tree after.tree := by
  rcases declareFunction_eq_ok accepted with ⟨rfl, _⟩ | ⟨_, tree, _, _⟩
  · exact .refl root after.tree
  · rw [tree]
    exact .of_symbol root _ rfl (fun _ _ => rfl) (Layout.Le.refl _)

private theorem declareFunction_extends {definition : FunctionDef} {params : List Ty} {ret : Ty}
    {state after : State} {id : FunctionId}
    (accepted : declareFunction definition params ret state = .ok (id, after)) :
    Extends state after := by
  refine ⟨(declareFunction_grows accepted).layout_le, ?_⟩
  intro other signature found
  rcases declareFunction_eq_ok accepted with ⟨rfl, _⟩ | ⟨_, _, functions, _⟩
  · exact found
  · rw [functions]
    have bound : other < state.functions.size := by
      refine Nat.lt_of_not_le fun outside => ?_
      rw [signatureIn?, Array.getElem?_eq_none outside] at found
      cases found
    rw [signatureIn?, Array.getElem?_push_lt bound, ← Array.getElem?_eq_getElem bound]
    exact found

def withBody (layout : Layout) (body : List Command) (span : Span) (function : Function) :
    Function :=
  { function with layout, body? := some (.block body), span }

theorem lowerFunction_eq_ok {definition : FunctionDef} {state after : State}
    (accepted : lowerFunction definition state = .ok after) :
    ∃ ret first params second id declared,
      resolveSpecifier root none definition.span definition.returns state.tree =
        .ok (ret, first) ∧
      paramTypes definition.params first = .ok (params, second) ∧
      declareFunction definition params ret { state with tree := second } = .ok (id, declared) ∧
      (after = declared ∨ ∃ body prologue stored commands last,
        storeArguments (declared.tree.functionScope root).1 0 definition.params params
          (declared.tree.functionScope root).2 = .ok (prologue, stored) ∧
        lowerStmts ⟨ret, false⟩ (declared.tree.functionScope root).1 body stored =
          .ok (commands, last) ∧
        after = { declared with
          tree := last
          functions := declared.functions.modify id
            (withBody (last.layout (declared.tree.functionScope root).1) (prologue ++ commands)
              definition.span) }) := by
  unfold lowerFunction at accepted
  obtain ⟨⟨ret, first⟩, returns, rest⟩ := bind_eq_ok.mp accepted
  obtain ⟨⟨params, second⟩, parameters, rest⟩ := bind_eq_ok.mp rest
  obtain ⟨⟨id, declared⟩, known, rest⟩ := bind_eq_ok.mp rest
  refine ⟨ret, first, params, second, id, declared, returns, parameters, known, ?_⟩
  simp only at rest
  split at rest
  · cases rest
    exact Or.inl rfl
  · rename_i body _
    obtain ⟨⟨prologue, stored⟩, stores, rest⟩ := bind_eq_ok.mp rest
    obtain ⟨⟨commands, last⟩, lowered, built⟩ := bind_eq_ok.mp rest
    cases built
    exact Or.inr ⟨body, prologue, stored, commands, last, stores, lowered, rfl⟩

private theorem signatureIn?_withBody (functions : Array Function) (layout : Layout)
    (body : List Command)
    (span : Span) (id other : FunctionId) :
    signatureIn? (functions.modify id (withBody layout body span)) other =
      signatureIn? functions other := by
  simp only [signatureIn?, Array.getElem?_modify]
  split
  · cases functions[other]? with
    | none => rfl
    | some function => rfl
  · rfl

private theorem body_lowers {setting : Setting} {params : List Param} {tys : List Ty} {ret : Ty}
    {body : List Stmt} {start stored last : ScopeTree} {scope : ScopeId}
    {prologue commands : List Command} (inFunction : InFunction setting ⟨ret, false⟩)
    (sameParams : setting.params = tys) (permitted : ∀ ty ∈ tys, isParam ty = true)
    (inside : scope < start.scopes.size)
    (stores : storeArguments scope 0 params tys start = .ok (prologue, stored))
    (lowered : lowerStmts ⟨ret, false⟩ scope body stored = .ok (commands, last)) :
    Lowers setting scope start last (fun vars out =>
      Command.Typed setting false vars (.block (prologue ++ commands)) out) := by
  have first : Lowers setting scope start stored
      (fun vars out => Commands.Typed setting false vars prologue out) := by
    refine storeArguments_lowers permitted ?_ inside stores
    intro offset ty found
    rw [Nat.zero_add, sameParams]
    exact found
  have second := lowerStmts_lowers body ⟨ret, false⟩ scope stored last commands inFunction
    (first.grows.inside inside) lowered
  refine first.trans inside second ?_
  intro vars between out firstTyped restTyped
  exact .block inFunction.region (firstTyped.append restTyped)

private theorem body_grows {params : List Param} {tys : List Ty} {ret : Ty} {body : List Stmt}
    {start stored last : ScopeTree} {scope : ScopeId} {prologue commands : List Command}
    (permitted : ∀ ty ∈ tys, isParam ty = true) (inside : scope < start.scopes.size)
    (stores : storeArguments scope 0 params tys start = .ok (prologue, stored))
    (lowered : lowerStmts ⟨ret, false⟩ scope body stored = .ok (commands, last)) :
    Grows scope start last := by
  -- any surroundings will do, since only the tree matters here
  let setting : Setting := ⟨fun _ => none, true, ⟨0, 0⟩, ⟨0, 0⟩, tys, some ret⟩
  have inFunction : InFunction setting ⟨ret, false⟩ := ⟨rfl, rfl⟩
  exact (body_lowers inFunction rfl permitted inside stores lowered).grows

/-- Everything that lowering a function does to the tree and to the signatures. -/
theorem lowerFunction_extends {definition : FunctionDef} {state after : State}
    (rooted : Rooted state.tree) (accepted : lowerFunction definition state = .ok after) :
    Rooted after.tree ∧ Extends state after := by
  obtain ⟨ret, first, params, second, id, declared, returns, parameters, known, rest⟩ :=
    lowerFunction_eq_ok accepted
  obtain ⟨same, _⟩ := resolveSpecifier_spec _ _ _ _ _ _ _ returns
  obtain ⟨sameParams, permitted⟩ := paramTypes_spec parameters
  have sameBoth := same.trans sameParams
  have grown := declareFunction_grows known
  have declaredRooted := (rooted.grows (sameBoth.grows root)).grows grown
  have declaredExtends : Extends state declared := by
    have step := declareFunction_extends known
    exact ⟨(sameBoth.grows root).layout_le.trans step.layout_le, step.signature⟩
  rcases rest with rfl | ⟨body, prologue, stored, commands, last, stores, lowered, rfl⟩
  · exact ⟨declaredRooted, declaredExtends⟩
  · have grownInside := body_grows (permitted (same.types rooted.types))
      (functionScope_inside _ _) stores lowered
    have sameRoot := declaredRooted.sameRoot grownInside
    refine ⟨sameRoot.rooted declaredRooted, ?_, ?_⟩
    · have layoutEq : last.layout root = declared.tree.layout root := sameRoot.layout_eq
      simp only [layoutEq]
      exact declaredExtends.layout_le
    · intro other signature found
      have kept := declaredExtends.signature other signature found
      simp only [signatureIn?_withBody]
      exact kept

/-! ### Items -/

structure StateTyped (program : Program) (calls : Bool) (vars : Variables) (state : State) :
    Prop where
  allGlobal : vars.AllGlobal
  agrees : Agrees (program.initSetting calls) vars state.tree root
  init : Commands.Typed (program.initSetting calls) false .none state.init vars
  /-- A body needs the variables before it and does not mind more of them. -/
  body : ∀ (id : FunctionId) function body, state.functions[id]? = some function →
    function.body? = some body → ∀ more, vars.Le more → more.AllGlobal →
    ∃ out, Command.Typed (program.bodySetting function) false more body out
  ret : ∀ (id : FunctionId) function, state.functions[id]? = some function →
    function.ret.isDeclarable = true

/-- The finished program has room for everything that the state has. -/
structure Fits (program : Program) (state : State) : Prop where
  layout_le : (state.tree.layout root).Le program.globals
  signature : ∀ id signature, signatureIn? state.functions id = some signature →
    program.signature? id = some signature

theorem Fits.mono {program : Program} {before after : State} (fits : Fits program after)
    (extended : Extends before after) : Fits program before :=
  ⟨extended.layout_le.trans fits.layout_le,
    fun id signature found => fits.signature id signature (extended.signature id signature found)⟩

variable {program : Program} {calls : Bool} {vars : Variables}

private theorem Agrees.rooted {tree : ScopeTree}
    (agrees : Agrees (program.initSetting calls) vars tree root) : Rooted tree where
  inside := agrees.inside
  frame := by
    have region : tree.region root = .global := agrees.region_eq
    unfold ScopeTree.region isGlobal at region
    split at region
    · rename_i same
      exact eq_of_beq same
    · cases region
  layouts := Nat.lt_of_le_of_lt (Nat.zero_le _) agrees.frameInside
  types := agrees.types

private theorem declaration_typed {declaration : Declaration} {state : State}
    {commands : List Command}
    {tree : ScopeTree} (typed : StateTyped program calls vars state)
    (permits : (program.initSetting calls).Permits declaration.callsFunction)
    (room : (tree.layout root).Le program.globals)
    (accepted : lowerDeclaration root declaration state.tree = .ok (commands, tree)) :
    ∃ out, StateTyped program calls out { state with tree, init := state.init ++ commands } := by
  have lowers := lowerDeclaration_lowers false permits typed.agrees.inside accepted
  obtain ⟨out, commandsTyped, agrees⟩ := lowers.typed vars typed.agrees room
  refine ⟨out, ?_⟩
  exact
    { allGlobal := commandsTyped.allGlobal rfl typed.allGlobal
      agrees := agrees
      init := typed.init.append commandsTyped
      body := fun id function body found defined more fewer moreGlobal =>
        typed.body id function body found defined more (commandsTyped.le.trans fewer) moreGlobal
      ret := typed.ret }

theorem Agrees.withFunction {setting : Setting} {tree : ScopeTree} {symbol : Symbol}
    (agrees : Agrees setting vars tree root) (typed : SymbolTyped setting vars symbol) :
    Agrees setting vars (tree.changed root (Scope.withSymbol symbol) tree.layouts) root := by
  have grown : Grows root tree (tree.changed root (Scope.withSymbol symbol) tree.layouts) :=
    .of_symbol root symbol rfl (fun _ _ => rfl) (Layout.Le.refl _)
  have frame := grown.frame_eq root agrees.inside
  have layout : (tree.changed root (Scope.withSymbol symbol) tree.layouts).layout root =
      tree.layout root := by
    rw [ScopeTree.layout, ScopeTree.layout, frame]
    rfl
  refine
    { inside := grown.inside agrees.inside
      frameInside := ?_
      region_eq := ?_
      visible := ?_
      scalars := ?_
      references := ?_
      types := grown.types agrees.types }
  · rw [frame]
    exact agrees.frameInside
  · rw [grown.region_eq agrees.inside]
    exact agrees.region_eq
  · intro name found resolved
    rcases resolve?_of_symbol resolved with rfl | old
    · exact typed
    · exact agrees.visible name found old
  · rw [layout]
    exact agrees.scalars
  · rw [layout]
    exact agrees.references

private theorem resolve?_of_resolveLocal? {tree : ScopeTree} {scope : ScopeId} {name : String}
    {symbol : Symbol} (found : tree.resolveLocal? scope name = some symbol) :
    tree.resolve? scope name = some symbol := by
  rw [resolve?, nearest?]
  rw [resolveLocal?] at found
  simp only [found]

private theorem declareFunction_typed {definition : FunctionDef} {params : List Ty} {ret : Ty}
    {state after : State} {id : FunctionId} (typed : StateTyped program calls vars state)
    (declarable : ret.isDeclarable = true) (fits : Fits program after)
    (accepted : declareFunction definition params ret state = .ok (id, after)) :
    StateTyped program calls vars after ∧ program.signature? id = some (params, ret) := by
  rcases declareFunction_eq_ok accepted with ⟨rfl, symbol, found, storage, sameTy⟩ |
    ⟨rfl, tree, functions, init⟩
  · have known := typed.agrees.visible _ symbol (resolve?_of_resolveLocal? found)
    simp only [SymbolTyped, storage] at known
    exact ⟨typed, known params ret sameTy⟩
  · have signature : program.signature? state.functions.size = some (params, ret) := by
      refine fits.signature _ _ ?_
      rw [functions, signatureIn?, Array.getElem?_push_size]
      rfl
    have symbolTyped : SymbolTyped (program.initSetting calls) vars
        ⟨definition.name, .func params ret, .function state.functions.size⟩ := by
      intro params' ret' same
      cases same
      exact signature
    have old {id : FunctionId} {function : Function}
        (found : after.functions[id]? = some function) :
        state.functions[id]? = some function ∨ (function.body? = none ∧ function.ret = ret) := by
      rw [functions, Array.getElem?_push] at found
      split at found
      · cases found
        exact Or.inr ⟨rfl, rfl⟩
      · exact Or.inl found
    refine ⟨⟨typed.allGlobal, ?_, ?_, ?_, ?_⟩, signature⟩
    · rw [tree]
      exact typed.agrees.withFunction symbolTyped
    · rw [init]
      exact typed.init
    · intro id function body found defined
      rcases old found with before | ⟨prototype, _⟩
      · exact typed.body id function body before defined
      · rw [prototype] at defined
        cases defined
    · intro id function found
      rcases old found with before | ⟨_, same⟩
      · exact typed.ret id function before
      · rw [same]
        exact declarable

/-- A body is well formed for any global variables that hold those before it. -/
theorem body_typed {prototype : Function} {params : List Param} {body : List Stmt} {span : Span}
    {tree stored last : ScopeTree} {prologue commands : List Command} {more : Variables}
    (agrees : Agrees (program.initSetting calls) vars tree root) (allGlobal : vars.AllGlobal)
    (fewer : vars.Le more) (moreGlobal : more.AllGlobal)
    (permitted : ∀ ty ∈ prototype.params, isParam ty = true)
    (stores : storeArguments (tree.functionScope root).1 0 params prototype.params
      (tree.functionScope root).2 = .ok (prologue, stored))
    (lowered : lowerStmts ⟨prototype.ret, false⟩ (tree.functionScope root).1 body stored =
      .ok (commands, last)) :
    ∃ out, Command.Typed (program.bodySetting
      (withBody (last.layout (tree.functionScope root).1) (prologue ++ commands) span prototype))
      false more (.block (prologue ++ commands)) out := by
  generalize settingEq : program.bodySetting
    (withBody (last.layout (tree.functionScope root).1) (prologue ++ commands) span prototype) =
    setting
  have inFunction : InFunction setting ⟨prototype.ret, false⟩ := by
    subst settingEq
    exact ⟨rfl, rfl⟩
  have sameParams : setting.params = prototype.params := by
    subst settingEq
    rfl
  have room : (last.layout (tree.functionScope root).1).Le (setting.layout setting.region) := by
    subst settingEq
    exact Layout.Le.refl _
  have inner : Agrees setting more (tree.functionScope root).2 (tree.functionScope root).1 := by
    subst settingEq
    exact agrees.functionScope rfl rfl rfl allGlobal fewer moreGlobal
  have lowers := body_lowers inFunction sameParams permitted (functionScope_inside tree root) stores
    lowered
  obtain ⟨out, typed, _⟩ := lowers.typed more inner room
  exact ⟨out, typed⟩

private theorem function_typed {definition : FunctionDef} {state after : State}
    (typed : StateTyped program calls vars state) (fits : Fits program after)
    (accepted : lowerFunction definition state = .ok after) :
    StateTyped program calls vars after := by
  obtain ⟨ret, first, params, second, id, declared, returns, parameters, known, rest⟩ :=
    lowerFunction_eq_ok accepted
  obtain ⟨same, declarable⟩ := resolveSpecifier_spec _ _ _ _ _ _ _ returns
  obtain ⟨sameParams, permitted⟩ := paramTypes_spec parameters
  have resolved : StateTyped program calls vars { state with tree := second } :=
    ⟨typed.allGlobal, typed.agrees.sameSymbols (same.trans sameParams), typed.init, typed.body,
      typed.ret⟩
  have retDeclarable := declarable typed.agrees.types
  rcases rest with rfl | ⟨body, prologue, stored, commands, last, stores, lowered, rfl⟩
  · exact (declareFunction_typed resolved retDeclarable fits known).1
  · have paramsPermitted := permitted (same.types typed.agrees.types)
    have inside := functionScope_inside declared.tree root
    have rooted := resolved.agrees.rooted.grows (declareFunction_grows known)
    have sameRoot := rooted.sameRoot (body_grows paramsPermitted inside stores lowered)
    have fitsDeclared : Fits program declared := by
      refine ⟨?_, ?_⟩
      · rw [← sameRoot.layout_eq]
        exact fits.layout_le
      · intro other signature found
        refine fits.signature other signature ?_
        simp only [signatureIn?_withBody]
        exact found
    obtain ⟨declaredTyped, signature⟩ :=
      declareFunction_typed resolved retDeclarable fitsDeclared known
    refine ⟨typed.allGlobal, sameRoot.agrees declaredTyped.agrees, declaredTyped.init, ?_, ?_⟩
    · intro other function otherBody found defined more fewer moreGlobal
      simp only [Array.getElem?_modify] at found
      split at found
      · rename_i sameId
        obtain ⟨prototype, before, rfl⟩ := Option.map_eq_some_iff.mp found
        cases defined
        subst sameId
        -- the program knows one signature of the function only
        have listed := fitsDeclared.signature id (prototype.params, prototype.ret) (by
          rw [signatureIn?, before]
          rfl)
        rw [signature] at listed
        cases listed
        exact body_typed declaredTyped.agrees typed.allGlobal fewer moreGlobal paramsPermitted
          stores lowered
      · exact declaredTyped.body other function otherBody found defined more fewer moreGlobal
    · intro other function found
      simp only [Array.getElem?_modify] at found
      split at found
      · obtain ⟨prototype, before, rfl⟩ := Option.map_eq_some_iff.mp found
        exact declaredTyped.ret other prototype before
      · exact declaredTyped.ret other function found

private theorem lowerItem_extends {item : Item} {state after : State} (rooted : Rooted state.tree)
    (accepted : lowerItem item state = .ok after) : Rooted after.tree ∧ Extends state after := by
  cases item with
  | function definition => exact lowerFunction_extends rooted accepted
  | declaration declaration =>
      obtain ⟨⟨commands, tree⟩, lowered, built⟩ := bind_eq_ok.mp accepted
      cases built
      have grown := lowerDeclaration_grows rooted.inside lowered
      exact ⟨rooted.grows grown, grown.layout_le, fun _ _ found => found⟩

private theorem lowerItems_extends {items : List Item} {state after : State}
    (rooted : Rooted state.tree)
    (accepted : lowerItems items state = .ok after) : Extends state after := by
  induction items generalizing state with
  | nil =>
      cases accepted
      exact ⟨Layout.Le.refl _, fun _ _ found => found⟩
  | cons item rest ih =>
      obtain ⟨middle, lowered, continued⟩ := bind_eq_ok.mp accepted
      obtain ⟨middleRooted, extended⟩ := lowerItem_extends rooted lowered
      exact extended.trans (ih middleRooted continued)

private theorem lowerItem_typed {item : Item} {state after : State}
    (typed : StateTyped program calls vars state) (fits : Fits program after)
    (permits : (program.initSetting calls).Permits item.initCallsFunction)
    (accepted : lowerItem item state = .ok after) : ∃ out, StateTyped program calls out after := by
  cases item with
  | function definition => exact ⟨vars, function_typed typed fits accepted⟩
  | declaration declaration =>
      obtain ⟨⟨commands, tree⟩, lowered, built⟩ := bind_eq_ok.mp accepted
      cases built
      exact declaration_typed typed permits fits.layout_le lowered

theorem lowerItems_typed {items : List Item} {state after : State}
    (typed : StateTyped program calls vars state) (fits : Fits program after)
    (permits : (program.initSetting calls).Permits (items.any Item.initCallsFunction))
    (accepted : lowerItems items state = .ok after) :
    ∃ out, StateTyped program calls out after := by
  induction items generalizing state vars with
  | nil =>
      cases accepted
      exact ⟨vars, typed⟩
  | cons item rest ih =>
      rw [List.any_cons, Setting.permits_or] at permits
      obtain ⟨middle, lowered, continued⟩ := bind_eq_ok.mp accepted
      obtain ⟨middleRooted, _⟩ := lowerItem_extends typed.agrees.rooted lowered
      have middleFits := fits.mono (lowerItems_extends middleRooted continued)
      obtain ⟨between, middleTyped⟩ := lowerItem_typed typed middleFits permits.1 lowered
      exact ih middleTyped permits.2 continued

def predeclared : List (String × Symbol) :=
  [("stderr", ⟨"stderr", .num .i32, .constant (.i32 2)⟩),
    ("stdout", ⟨"stdout", .num .i32, .constant (.i32 1)⟩)]

def predeclaredTypes : List (String × Ty) :=
  [("size_t", .num .u64), ("uint64_t", .num .u64), ("int64_t", .num .i64), ("uint32_t", .num .u32),
    ("int32_t", .num .i32), ("ulong", .num .u64), ("uint", .num .u32)]

theorem initialTree_eq :
    initialTree = ⟨#[⟨none, globalFrame, predeclared, predeclaredTypes⟩], #[⟨0, 0⟩]⟩ :=
  rfl

theorem mem_of_lookup {α : Type} {name : String} {entries : List (String × α)} {entry : α}
    (found : entries.lookup name = some entry) : (name, entry) ∈ entries := by
  obtain ⟨before, behind, rfl, _⟩ := List.lookup_eq_some_iff.mp found
  exact List.mem_append_right before List.mem_cons_self

private theorem initialTree_types : initialTree.TypesDeclarable := by
  have declarable : ∀ entry ∈ predeclaredTypes, entry.2.isDeclarable = true := by decide
  intro id name ty named
  rw [initialTree_eq] at named
  cases id with
  | zero => exact declarable _ (mem_of_lookup named)
  | succ id => cases named

private theorem initialTree_visible (setting : Setting) (vars : Variables) :
    Visible setting vars initialTree root := by
  intro name symbol resolved
  rw [initialTree_eq, resolve?, nearest?] at resolved
  have listed : (name, symbol) ∈ predeclared := by
    cases found : predeclared.lookup name with
    | none =>
        have here : (scopeAt ⟨#[⟨none, globalFrame, predeclared, predeclaredTypes⟩], #[⟨0, 0⟩]⟩
            root).symbols.lookup name = none := found
        rw [here] at resolved
        cases resolved
    | some other =>
        have here : (scopeAt ⟨#[⟨none, globalFrame, predeclared, predeclaredTypes⟩], #[⟨0, 0⟩]⟩
            root).symbols.lookup name = some other := found
        rw [here] at resolved
        cases resolved
        exact mem_of_lookup found
  simp only [predeclared, List.mem_cons, List.not_mem_nil, or_false, Prod.mk.injEq] at listed
  rcases listed with ⟨_, rfl⟩ | ⟨_, rfl⟩
  · exact rfl
  · exact rfl

theorem initial_typed (program : Program) (calls : Bool) :
    StateTyped program calls .none State.initial where
  allGlobal := .none
  agrees := by
    refine ⟨by decide, by decide, rfl, initialTree_visible _ _, ?_, ?_, initialTree_types⟩
    · intro slot ty known
      cases known
    · intro slot ty known
      cases known
  init := .nil
  body := by
    intro id function body found
    simp only [State.initial, Array.getElem?_empty] at found
    cases found
  ret := by
    intro id function found
    simp only [State.initial, Array.getElem?_empty] at found
    cases found

end Lowering

open Lowering Typing

/-- An accepted source becomes a well-formed program, and one without calls in its initialisation if
no global declaration calls a function. -/
theorem lower_typed {items : List Item} {program : Program} {calls : Bool}
    (quiet : calls = false → items.any Item.initCallsFunction = false)
    (accepted : lower items = .ok program) : ∃ globals, program.Typed calls globals := by
  obtain ⟨state, lowered, built⟩ := bind_eq_ok.mp accepted
  cases built
  have initial := initial_typed ⟨state.functions, state.tree.layout ScopeTree.root, state.init,
    mainFunction? state.tree⟩ calls
  have fits : Fits ⟨state.functions, state.tree.layout ScopeTree.root, state.init,
      mainFunction? state.tree⟩ state :=
    ⟨Layout.Le.refl _, fun _ _ found => found⟩
  obtain ⟨globals, typed⟩ := lowerItems_typed initial fits quiet lowered
  refine ⟨globals, typed.allGlobal, typed.init, ?_, typed.ret⟩
  intro id function body found defined
  exact typed.body id function body found defined globals (.refl globals) typed.allGlobal

/-- In an accepted program every slot lies in its frame, every operand has the type of its operator,
calls fit their functions, and control leaves no loop and no function that is not there. -/
theorem lower_wellFormed {items : List Item} {program : Program}
    (accepted : lower items = .ok program) : program.WellFormed :=
  lower_typed (by intro impossible; cases impossible) accepted

/-- A source with a global array, and a function with a parameter, a loop, an element and jumps. -/
def countdown : List Item :=
  let place : Span := ⟨0, 0⟩
  let number (value : UInt64) : Expr := .int place ⟨value, false, false, false⟩
  let n : Expr := .ident place "n"
  [.declaration ⟨false, .int, [⟨"a", some (number 3), none, place⟩], place⟩,
    .function ⟨.int, "f", [⟨.int, "n", false, place⟩], some
      [.whileLoop place n (.block place
        [.expr place (.assign place (some .sub) n (number 1)),
          .branch place n (.cont place) none,
          .brk place]),
        .ret place (some (.subscript place (.ident place "a") n))], place⟩,
    .function ⟨.int, "main", [], some
      [.ret place (some (.call place "f" place [number 2]))], place⟩]

/-- The program has two functions, of which the second is the entry, and room for the array. -/
theorem lower_wellFormed_countdown :
    ∃ program, lower countdown = .ok program ∧ program.WellFormed ∧
      program.functions.toList.map Function.name = ["f", "main"] ∧ program.main? = some 1 ∧
      program.globals = ⟨0, 1⟩ := by
  have checked : ((lower countdown).toOption.any fun program =>
      decide (program.functions.toList.map Function.name = ["f", "main"] ∧
        program.main? = some 1 ∧ program.globals = ⟨0, 1⟩)) = true := by
    decide +kernel
  obtain ⟨program, accepted, shape⟩ := eq_ok_of_any checked
  exact ⟨program, accepted, lower_wellFormed accepted, of_decide_eq_true shape⟩

end MiniC
