import MiniC.Proofs.ScopeTree

/-!
Calls on a scope tree, as changes made in place.

A change that is refused has its tree still, so what it did before it was refused
could be seen. It did nothing: whether the name is free is asked before a slot is
counted. All that the calls do is listed once, for the proofs of what they keep.
-/

namespace MiniC

inductive SlotKind where
  | scalar
  | reference
deriving DecidableEq

def Layout.count (layout : Layout) : SlotKind → Nat
  | .scalar => layout.scalars
  | .reference => layout.references

/-- The slot of a storage, with its kind. -/
def Storage.slot? : Storage → Option (SlotKind × Slot)
  | .scalar slot => some (.scalar, slot)
  | .reference slot => some (.reference, slot)
  | .function _ | .constant _ => none

namespace ScopeTree

/-- A change of a tree in place. One that is refused gives the name that is there already and keeps
the tree that it has reached. -/
abbrev Change := EStateM String ScopeTree

def insertSymbol (scope : ScopeId) (symbol : Symbol) : Change Symbol := do
  if ((← get).resolveLocal? scope symbol.name).isSome then throw symbol.name
  else
    modify fun tree => tree.changed scope (Scope.withSymbol symbol) tree.layouts
    return symbol

/-- The slot is counted before the symbol is inserted, and the name is looked up before both. -/
def defineVariable (scope : ScopeId) (name : String) (ty : Ty) : Change Symbol := do
  let tree ← get
  if (tree.resolveLocal? scope name).isSome then throw name
  else
    let slot := nextSlot (tree.region scope) ty (tree.layout scope)
    modify fun tree =>
      { tree with layouts := tree.layouts.setIfInBounds (tree.scopeAt scope).frame slot.2 }
    insertSymbol scope ⟨name, ty, slot.1⟩

section Changes

variable {tree : ScopeTree} {scope : ScopeId} {name : String} {other : Symbol}

private theorem insertSymbol_of_some {symbol : Symbol}
    (taken : tree.resolveLocal? scope symbol.name = some other) :
    insertSymbol scope symbol tree = .error symbol.name tree := by
  change (if (tree.resolveLocal? scope symbol.name).isSome then throw symbol.name else _ :
    Change Symbol) tree = _
  rw [taken]
  rfl

private theorem insertSymbol_of_none {symbol : Symbol}
    (free : tree.resolveLocal? scope symbol.name = none) :
    insertSymbol scope symbol tree =
      .ok symbol (tree.changed scope (Scope.withSymbol symbol) tree.layouts) := by
  change (if (tree.resolveLocal? scope symbol.name).isSome then throw symbol.name else _ :
    Change Symbol) tree = _
  rw [free]
  rfl

private theorem defineVariable_of_some {ty : Ty}
    (taken : tree.resolveLocal? scope name = some other) :
    defineVariable scope name ty tree = .error name tree := by
  change (if (tree.resolveLocal? scope name).isSome then throw name else _ :
    Change Symbol) tree = _
  rw [taken]
  rfl

private theorem defineVariable_of_none {ty : Ty} {storage : Storage} {layout : Layout}
    (free : tree.resolveLocal? scope name = none)
    (next : nextSlot (tree.region scope) ty (tree.layout scope) = (storage, layout)) :
    defineVariable scope name ty tree =
      .ok ⟨name, ty, storage⟩
        (tree.changed scope (Scope.withSymbol ⟨name, ty, storage⟩)
          (tree.layouts.setIfInBounds (tree.scopeAt scope).frame layout)) := by
  change (if (tree.resolveLocal? scope name).isSome then throw name else _ :
    Change Symbol) tree = _
  rw [free, next]
  exact insertSymbol_of_none free

/-- Inserting in place is inserting. -/
theorem insertSymbol_apply (scope : ScopeId) (symbol : Symbol) :
    insertSymbol scope symbol tree =
      match tree.insert? scope symbol with
      | some (inserted, after) => .ok inserted after
      | none => .error symbol.name tree := by
  unfold insert?
  cases found : tree.resolveLocal? scope symbol.name with
  | some other => exact insertSymbol_of_some found
  | none => exact insertSymbol_of_none found

/-- Defining in place is defining. -/
theorem defineVariable_apply (scope : ScopeId) (name : String) (ty : Ty) :
    defineVariable scope name ty tree =
      match tree.define? scope name ty with
      | some (defined, after) => .ok defined after
      | none => .error name tree := by
  unfold define? insert?
  cases found : tree.resolveLocal? scope name with
  | some other =>
      simp only [found]
      exact defineVariable_of_some found
  | none =>
      simp only [found]
      exact defineVariable_of_none found rfl

end Changes

/-! ### Calls -/

inductive Call where
  | child (parent : ScopeId)
  | functionScope (parent : ScopeId)
  | define (scope : ScopeId) (name : String) (ty : Ty)
  | defineFunction (scope : ScopeId) (name : String) (ty : Ty) (function : FunctionId)
  | defineConstant (scope : ScopeId) (name : String) (ty : Ty) (value : Value)
  | defineType (scope : ScopeId) (name : String) (ty : Ty)

def Call.scope : Call → ScopeId
  | child parent | functionScope parent => parent
  | define scope _ _ | defineFunction scope _ _ _ | defineConstant scope _ _ _
  | defineType scope _ _ => scope

inductive Answer where
  | scope (id : ScopeId)
  | symbol (symbol : Symbol)
  | done

def Call.perform : Call → Change Answer
  | child parent => do
      let (id, tree) := (← get).child parent
      set tree
      return .scope id
  | functionScope parent => do
      let (id, tree) := (← get).functionScope parent
      set tree
      return .scope id
  | define scope name ty => Answer.symbol <$> defineVariable scope name ty
  | defineFunction scope name ty function =>
      Answer.symbol <$> insertSymbol scope ⟨name, ty, .function function⟩
  | defineConstant scope name ty value =>
      Answer.symbol <$> insertSymbol scope ⟨name, ty, .constant value⟩
  | defineType scope name ty => do
      modify (·.defineType scope name ty)
      return .done

/-- The call as an operation on the tree, which is given up when the call is refused. -/
def Call.apply? (tree : ScopeTree) : Call → Option (Answer × ScopeTree)
  | child parent => some ((tree.child parent).map .scope id)
  | functionScope parent => some ((tree.functionScope parent).map .scope id)
  | define scope name ty => (tree.define? scope name ty).map (Prod.map .symbol id)
  | defineFunction scope name ty function =>
      (tree.defineFunction? scope name ty function).map (Prod.map .symbol id)
  | defineConstant scope name ty value =>
      (tree.defineConstant? scope name ty value).map (Prod.map .symbol id)
  | defineType scope name ty => some (.done, tree.defineType scope name ty)

/-- A call that can be refused passes on what the change of the tree gives. -/
theorem Change.symbol_eq_ok_iff {change : Change Symbol} {tree after : ScopeTree} {name : String}
    {found? : Option (Symbol × ScopeTree)} {answer : Answer}
    (changed : change tree = match found? with
      | some (symbol, after) => .ok symbol after
      | none => .error name tree) :
    (Answer.symbol <$> change) tree = .ok answer after ↔
      found?.map (Prod.map Answer.symbol id) = some (answer, after) := by
  change EStateM.map Answer.symbol change tree = _ ↔ _
  rw [EStateM.map, changed]
  cases found? with
  | none => exact iff_of_false (fun same => nomatch same) (fun same => nomatch same)
  | some found =>
      simp only [Option.map_some, Prod.map, id, EStateM.Result.ok.injEq, Option.some.injEq,
        Prod.mk.injEq]

/-- A call in place is accepted where the operation is, and leaves the same tree. -/
theorem Call.perform_eq_ok_iff {call : Call} {tree after : ScopeTree} {answer : Answer} :
    call.perform tree = .ok answer after ↔ call.apply? tree = some (answer, after) := by
  cases call with
  | child parent | functionScope parent | defineType scope name ty =>
      exact ⟨fun same => by cases same; rfl, fun same => by cases same; rfl⟩
  | define scope name ty => exact Change.symbol_eq_ok_iff (defineVariable_apply scope name ty)
  | defineFunction scope name ty function =>
      exact Change.symbol_eq_ok_iff (insertSymbol_apply scope ⟨name, ty, .function function⟩)
  | defineConstant scope name ty value =>
      exact Change.symbol_eq_ok_iff (insertSymbol_apply scope ⟨name, ty, .constant value⟩)

/-- What a change leaves, whether it was refused or not. -/
def Change.after {α : Type} (change : Change α) (tree : ScopeTree) : ScopeTree :=
  match change tree with
  | .ok _ after => after
  | .error _ after => after

/-- The trees that calls on existing scopes make. -/
inductive Reached : ScopeTree → Prop where
  | initial : Reached .initial
  | call {tree : ScopeTree} (call : Call) : Reached tree → call.scope < tree.scopes.size →
      Reached (call.perform.after tree)

/-- The storage has no slot, or the next one of the scope's frame, and the layouts count it. -/
inductive Allots (tree : ScopeTree) (scope : ScopeId) (storage : Storage) : Array Layout → Prop where
  | nothing : storage.slot? = none → Allots tree scope storage tree.layouts
  | slot {ty : Ty} {layout : Layout} :
      nextSlot (tree.region scope) ty (tree.layout scope) = (storage, layout) →
      Allots tree scope storage (tree.layouts.setIfInBounds (tree.scopeAt scope).frame layout)

/-- The trees that a call on the scope can leave. -/
inductive Effect (tree : ScopeTree) (scope : ScopeId) : ScopeTree → Prop where
  | refused : Effect tree scope tree
  | block : Effect tree scope (tree.child scope).2
  | function : Effect tree scope (tree.functionScope scope).2
  | symbol (symbol : Symbol) (layouts : Array Layout) :
      tree.resolveLocal? scope symbol.name = none → tree.Allots scope symbol.storage layouts →
      Effect tree scope (tree.changed scope (Scope.withSymbol symbol) layouts)
  | type (name : String) (ty : Ty) :
      Effect tree scope (tree.changed scope (Scope.withType name ty) tree.layouts)

def Inserts (tree : ScopeTree) (scope : ScopeId) (change : Change Symbol) : Prop :=
  (∃ name, change tree = .error name tree) ∨
    ∃ symbol layouts, tree.resolveLocal? scope symbol.name = none ∧
      tree.Allots scope symbol.storage layouts ∧
      change tree = .ok symbol (tree.changed scope (Scope.withSymbol symbol) layouts)

private theorem inserts_insertSymbol (tree : ScopeTree) (scope : ScopeId) (symbol : Symbol)
    (slotless : symbol.storage.slot? = none) :
    tree.Inserts scope (insertSymbol scope symbol) := by
  cases found : tree.resolveLocal? scope symbol.name with
  | some other => exact Or.inl ⟨symbol.name, insertSymbol_of_some found⟩
  | none =>
      exact Or.inr ⟨symbol, tree.layouts, found, .nothing slotless, insertSymbol_of_none found⟩

private theorem inserts_defineVariable (tree : ScopeTree) (scope : ScopeId) (name : String)
    (ty : Ty) :
    tree.Inserts scope (defineVariable scope name ty) := by
  cases found : tree.resolveLocal? scope name with
  | some other => exact Or.inl ⟨name, defineVariable_of_some found⟩
  | none => exact Or.inr ⟨_, _, found, .slot rfl, defineVariable_of_none found rfl⟩

theorem Inserts.outcome {tree : ScopeTree} {scope : ScopeId} {change : Change Symbol}
    (inserts : tree.Inserts scope change) :
    match (Answer.symbol <$> change) tree with
    | .ok _ after => Effect tree scope after
    | .error _ after => after = tree := by
  rcases inserts with ⟨name, refused⟩ | ⟨symbol, layouts, free, allots, added⟩
  · have mapped : (Answer.symbol <$> change) tree = .error name tree := by
      change EStateM.map Answer.symbol change tree = _
      rw [EStateM.map, refused]
    rw [mapped]
  · have mapped : (Answer.symbol <$> change) tree =
        .ok (.symbol symbol) (tree.changed scope (Scope.withSymbol symbol) layouts) := by
      change EStateM.map Answer.symbol change tree = _
      rw [EStateM.map, added]
    rw [mapped]
    exact .symbol symbol layouts free allots

/-- A call does one of these things, and if it is refused it does nothing. -/
theorem Call.perform_outcome (call : Call) (tree : ScopeTree) :
    match call.perform tree with
    | .ok _ after => Effect tree call.scope after
    | .error _ after => after = tree := by
  cases call with
  | child parent => exact Effect.block
  | functionScope parent => exact Effect.function
  | define scope name ty => exact (inserts_defineVariable tree scope name ty).outcome
  | defineFunction scope name ty function =>
      exact (inserts_insertSymbol tree scope ⟨name, ty, .function function⟩ rfl).outcome
  | defineConstant scope name ty value =>
      exact (inserts_insertSymbol tree scope ⟨name, ty, .constant value⟩ rfl).outcome
  | defineType scope name ty => exact Effect.type name ty

theorem Call.effect (call : Call) (tree : ScopeTree) :
    Effect tree call.scope (call.perform.after tree) := by
  have outcome := call.perform_outcome tree
  unfold Change.after
  cases performed : call.perform tree with
  | ok answer after =>
      rw [performed] at outcome
      exact outcome
  | error name after =>
      rw [performed] at outcome
      exact outcome ▸ Effect.refused

theorem Call.eq_of_error {call : Call} {tree after : ScopeTree} {name : String}
    (refused : call.perform tree = .error name after) : after = tree := by
  have outcome := call.perform_outcome tree
  rw [refused] at outcome
  exact outcome

end ScopeTree
end MiniC
