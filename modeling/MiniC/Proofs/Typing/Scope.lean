import MiniC.Proofs.Lowering.Growth

/-!
When a scope agrees with the variables that have been declared.

Every symbol that the scope can see is kept where the variables say, and the
slots that its frame has not given out yet belong to no variable.
-/

namespace MiniC.Lowering

open ScopeTree Typing

def SymbolTyped (setting : Setting) (vars : Variables) (symbol : Symbol) : Prop :=
  match symbol.storage with
  | .scalar slot =>
      vars.scalar slot = some symbol.ty ∧ setting.HasScalar slot ∧ isCondition symbol.ty = true
  | .reference slot =>
      vars.reference slot = some symbol.ty ∧ setting.HasReference slot ∧ symbol.ty.isObject = true
  | .function id =>
      ∀ params ret, symbol.ty = .func params ret → setting.signature? id = some (params, ret)
  | .constant value => value.ty? = some symbol.ty

theorem SymbolTyped.mono {setting : Setting} {vars more : Variables} {symbol : Symbol}
    (fewer : vars.Le more) (typed : SymbolTyped setting vars symbol) :
    SymbolTyped setting more symbol := by
  unfold SymbolTyped at typed ⊢
  split
  · rename_i slot storage
    simp only [storage] at typed
    exact ⟨fewer.scalar slot _ typed.1, typed.2⟩
  · rename_i slot storage
    simp only [storage] at typed
    exact ⟨fewer.reference slot _ typed.1, typed.2⟩
  · rename_i id storage
    simp only [storage] at typed
    exact typed
  · rename_i value storage
    simp only [storage] at typed
    exact typed

/-- Every symbol that a scope sees means what the surroundings say. -/
def Visible (setting : Setting) (vars : Variables) (tree : ScopeTree) (scope : ScopeId) : Prop :=
  ∀ name symbol, tree.resolve? scope name = some symbol → SymbolTyped setting vars symbol

theorem Visible.sameSymbols {setting : Setting} {vars : Variables} {tree after : ScopeTree}
    {scope : ScopeId} (visible : Visible setting vars tree scope) (same : SameSymbols tree after) :
    Visible setting vars after scope := by
  intro name symbol resolved
  rw [same.resolve?_eq scope name] at resolved
  exact visible name symbol resolved

/-- A scope of the tree agrees with the variables. -/
structure Agrees (setting : Setting) (vars : Variables) (tree : ScopeTree) (scope : ScopeId) :
    Prop where
  inside : scope < tree.scopes.size
  frameInside : (tree.scopeAt scope).frame < tree.layouts.size
  region_eq : tree.region scope = setting.region
  visible : Visible setting vars tree scope
  scalars : ∀ slot ty, vars.scalar slot = some ty → slot.region = setting.region →
    slot.index < (tree.layout scope).scalars
  references : ∀ slot ty, vars.reference slot = some ty → slot.region = setting.region →
    slot.index < (tree.layout scope).references
  types : tree.TypesDeclarable

namespace Agrees

variable {setting : Setting} {vars : Variables} {tree : ScopeTree} {scope : ScopeId}

theorem child (agrees : Agrees setting vars tree scope) :
    Agrees setting vars (tree.child scope).2 (tree.child scope).1 where
  inside := child_inside tree scope
  frameInside := by
    rw [child_frame]
    exact agrees.frameInside
  region_eq := by
    rw [region_child]
    exact agrees.region_eq
  visible := by
    intro name symbol resolved
    rw [resolve?_child agrees.inside] at resolved
    exact agrees.visible name symbol resolved
  scalars := by
    rw [layout_child]
    exact agrees.scalars
  references := by
    rw [layout_child]
    exact agrees.references
  types := agrees.types.addScope scope _

theorem transfer {after : ScopeTree} (agrees : Agrees setting vars tree scope)
    (inside : scope < after.scopes.size)
    (frame : (after.scopeAt scope).frame = (tree.scopeAt scope).frame)
    (layouts : tree.layouts.size ≤ after.layouts.size)
    (layout : after.layout scope = tree.layout scope)
    (resolve : ∀ name, after.resolve? scope name = tree.resolve? scope name)
    (types : after.TypesDeclarable) : Agrees setting vars after scope where
  inside := inside
  frameInside := by
    rw [frame]
    exact Nat.lt_of_lt_of_le agrees.frameInside layouts
  region_eq := by
    have same : after.region scope = tree.region scope := by
      unfold region isGlobal
      rw [frame]
    rw [same]
    exact agrees.region_eq
  visible := by
    intro name symbol resolved
    rw [resolve name] at resolved
    exact agrees.visible name symbol resolved
  scalars := by
    rw [layout]
    exact agrees.scalars
  references := by
    rw [layout]
    exact agrees.references
  types := types

theorem sameSymbols {after : ScopeTree} (agrees : Agrees setting vars tree scope)
    (same : SameSymbols tree after) : Agrees setting vars after scope := by
  refine agrees.transfer ?_ (same.frame_eq scope) ?_ (same.layout_eq scope)
    (same.resolve?_eq scope) (same.types agrees.types)
  · rw [same.size_eq]
    exact agrees.inside
  · exact Nat.le_of_eq (congrArg Array.size same.layouts_eq.symm)

/-- After a block the scope around it agrees with as much of what the block declared as is kept. -/
theorem leave {kept more : Variables} {after : ScopeTree}
    (agrees : Agrees setting vars tree scope)
    (grown : Grows (tree.child scope).1 (tree.child scope).2 after)
    (inner : Agrees setting more after (tree.child scope).1) (fewer : vars.Le kept)
    (declared : kept.Le more) : Agrees setting kept after scope := by
  have whole := Grows.of_child agrees.inside grown
  have layoutEq := Grows.layout_of_child agrees.inside grown
  have wider : scope < (tree.child scope).2.scopes.size := by
    simp only [ScopeTree.child, addScope, Array.size_push]
    exact Nat.lt_succ_of_lt agrees.inside
  refine
    { inside := whole.inside agrees.inside
      frameInside := ?_
      region_eq := ?_
      visible := ?_
      scalars := ?_
      references := ?_
      types := inner.types }
  · rw [whole.frame_eq scope agrees.inside, whole.layouts_size]
    exact agrees.frameInside
  · rw [whole.region_eq agrees.inside]
    exact agrees.region_eq
  · intro name symbol resolved
    rw [grown.resolve?_eq wider agrees.inside] at resolved
    have old : (tree.child scope).2.resolve? scope name = tree.resolve? scope name := by
      refine nearest?_congr scope ?_ ?_
      · intro other below
        rw [ScopeTree.child, scopeAt_addScope_of_lt (Nat.lt_of_le_of_lt below agrees.inside)]
      · intro other below
        rw [ScopeTree.child, scopeAt_addScope_of_lt (Nat.lt_of_le_of_lt below agrees.inside)]
    rw [old] at resolved
    exact (agrees.visible name symbol resolved).mono fewer
  · intro slot ty known here
    rw [← layoutEq]
    exact inner.scalars slot ty (declared.scalar slot ty known) here
  · intro slot ty known here
    rw [← layoutEq]
    exact inner.references slot ty (declared.reference slot ty known) here

end Agrees

/-! ### Declaring -/

private theorem isReference_of_isCondition {ty : Ty} (scalar : isCondition ty = true) :
    ty.isReference = false := by
  rcases isCondition_iff.mp scalar with ⟨kind, rfl⟩ | rfl
  · rfl
  · rfl

private theorem isReference_of_isObject {ty : Ty} (object : ty.isObject = true) :
    ty.isReference = true := by
  cases ty <;> first | rfl | cases object

section Declaring

variable {setting : Setting} {vars : Variables} {tree after : ScopeTree} {scope : ScopeId}
  {name : String} {ty : Ty} {span : Span} {slot : Slot}

theorem Agrees.define {more : Variables} (agrees : Agrees setting vars tree scope)
    (defined : defineSlot tree scope name ty span = .ok (slot, after)) (fewer : vars.Le more)
    (typed : SymbolTyped setting more (variableSymbol name ty slot))
    (scalars : ∀ other otherTy, more.scalar other = some otherTy →
      other.region = setting.region → other.index < (after.layout scope).scalars)
    (references : ∀ other otherTy, more.reference other = some otherTy →
      other.region = setting.region → other.index < (after.layout scope).references) :
    Agrees setting more after scope := by
  have grown := defineSlot_grows defined
  refine
    { inside := grown.inside agrees.inside
      frameInside := ?_
      region_eq := ?_
      visible := ?_
      scalars := scalars
      references := references
      types := grown.types agrees.types }
  · rw [grown.frame_eq scope agrees.inside, grown.layouts_size]
    exact agrees.frameInside
  · rw [grown.region_eq agrees.inside]
    exact agrees.region_eq
  · intro other symbol resolved
    rcases defineSlot_resolve? defined resolved with rfl | old
    · exact typed
    · exact (agrees.visible other symbol old).mono fewer

/-- A scalar variable: its slot is new, lies in the layout and belongs to the scope's frame. -/
theorem Agrees.defineScalar (agrees : Agrees setting vars tree scope)
    (scalar : isCondition ty = true)
    (defined : defineSlot tree scope name ty span = .ok (slot, after))
    (room : (after.layout scope).Le (setting.layout setting.region)) :
    vars.AcceptsScalar slot ty ∧ setting.HasScalar slot ∧ slot.region = setting.region ∧
      Agrees setting (vars.withScalar slot ty) after scope := by
  have direct := isReference_of_isCondition scalar
  have slotEq : slot = ⟨setting.region, (tree.layout scope).scalars⟩ := by
    rw [(defineSlot_eq_ok defined).1, freeSlot, agrees.region_eq, direct]
    rfl
  have layoutEq : after.layout scope =
      ⟨(tree.layout scope).scalars + 1, (tree.layout scope).references⟩ := by
    rw [defineSlot_layout agrees.frameInside defined, layoutWith, nextSlot, direct]
    rfl
  have region : slot.region = setting.region := by rw [slotEq]
  have index : slot.index = (tree.layout scope).scalars := by rw [slotEq]
  have fresh : vars.AcceptsScalar slot ty := by
    intro known typed
    have below := agrees.scalars slot known typed region
    omega
  have has : setting.HasScalar slot := by
    have bound := room.scalars
    rw [layoutEq] at bound
    rw [Setting.HasScalar, region, index]
    exact bound
  refine ⟨fresh, has, region, agrees.define defined (Variables.le_withScalar fresh) ?_ ?_ ?_⟩
  · simp only [SymbolTyped, variableSymbol, direct, Bool.false_eq_true, if_false]
    exact ⟨if_pos rfl, has, scalar⟩
  · intro other otherTy known here
    rw [layoutEq]
    by_cases same : other = slot
    · rw [same, index]
      exact Nat.lt_succ_self _
    · simp only [Variables.withScalar, if_neg same] at known
      exact Nat.lt_succ_of_lt (agrees.scalars other otherTy known here)
  · intro other otherTy known here
    rw [layoutEq]
    exact agrees.references other otherTy known here

theorem Agrees.defineReference (agrees : Agrees setting vars tree scope)
    (object : ty.isObject = true)
    (defined : defineSlot tree scope name ty span = .ok (slot, after))
    (room : (after.layout scope).Le (setting.layout setting.region)) :
    vars.AcceptsReference slot ty ∧ setting.HasReference slot ∧ slot.region = setting.region ∧
      Agrees setting (vars.withReference slot ty) after scope := by
  have indirect := isReference_of_isObject object
  have slotEq : slot = ⟨setting.region, (tree.layout scope).references⟩ := by
    rw [(defineSlot_eq_ok defined).1, freeSlot, agrees.region_eq, indirect]
    rfl
  have layoutEq : after.layout scope =
      ⟨(tree.layout scope).scalars, (tree.layout scope).references + 1⟩ := by
    rw [defineSlot_layout agrees.frameInside defined, layoutWith, nextSlot, indirect]
    rfl
  have region : slot.region = setting.region := by rw [slotEq]
  have index : slot.index = (tree.layout scope).references := by rw [slotEq]
  have fresh : vars.AcceptsReference slot ty := by
    intro known typed
    have below := agrees.references slot known typed region
    omega
  have has : setting.HasReference slot := by
    have bound := room.references
    rw [layoutEq] at bound
    rw [Setting.HasReference, region, index]
    exact bound
  refine ⟨fresh, has, region, agrees.define defined (Variables.le_withReference fresh) ?_ ?_ ?_⟩
  · simp only [SymbolTyped, variableSymbol, indirect, if_true]
    exact ⟨if_pos rfl, has, object⟩
  · intro other otherTy known here
    rw [layoutEq]
    exact agrees.scalars other otherTy known here
  · intro other otherTy known here
    rw [layoutEq]
    by_cases same : other = slot
    · rw [same, index]
      exact Nat.lt_succ_self _
    · simp only [Variables.withReference, if_neg same] at known
      exact Nat.lt_succ_of_lt (agrees.references other otherTy known here)

end Declaring

end MiniC.Lowering
