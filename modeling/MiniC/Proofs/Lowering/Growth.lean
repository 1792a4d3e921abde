import MiniC.Lowering.Stmt
import MiniC.Proofs.ScopeTree
import MiniC.Proofs.Typing.Conversion

/-!
Lowering only grows the scope tree.

A specifier names types and nothing else, a declaration adds its variable to the
scope it stands in, and a statement works in the scope around it.
-/

namespace MiniC.Lowering

open ScopeTree

theorem isDeclarable_struct_iff {name : String} {members : List (String × Ty)} :
    (Ty.struct name members).isDeclarable = true ↔
      ∀ member ∈ members, isCondition member.2 = true := by
  simp only [Ty.isDeclarable, List.all_eq_true]

mutual

/-- A specifier changes only names of types, and what it stands for may be declared. -/
theorem resolveSpecifier_spec (scope : ScopeId) (hint : Option String) (span : Span) :
    ∀ (spec : Specifier) (tree after : ScopeTree) (ty : Ty),
      resolveSpecifier scope hint span spec tree = .ok (ty, after) →
      SameSymbols tree after ∧ (tree.TypesDeclarable → ty.isDeclarable = true)
  | .int, tree, after, ty, accepted => by
      cases accepted
      exact ⟨.refl tree, fun _ => rfl⟩
  | .unsignedInt, tree, after, ty, accepted => by
      cases accepted
      exact ⟨.refl tree, fun _ => rfl⟩
  | .long, tree, after, ty, accepted => by
      cases accepted
      exact ⟨.refl tree, fun _ => rfl⟩
  | .unsignedLong, tree, after, ty, accepted => by
      cases accepted
      exact ⟨.refl tree, fun _ => rfl⟩
  | .float, tree, after, ty, accepted => by
      cases accepted
      exact ⟨.refl tree, fun _ => rfl⟩
  | .double, tree, after, ty, accepted => by
      cases accepted
      exact ⟨.refl tree, fun _ => rfl⟩
  | .bool, tree, after, ty, accepted => by
      cases accepted
      exact ⟨.refl tree, fun _ => rfl⟩
  | .void, tree, after, ty, accepted => by
      cases accepted
      exact ⟨.refl tree, fun _ => rfl⟩
  | .named name, tree, after, ty, accepted => by
      rw [resolveSpecifier] at accepted
      split at accepted
      · rename_i named
        cases accepted
        exact ⟨.refl tree, fun declarable => declarable.resolve named⟩
      · cases accepted
  | .struct tag? specs _, tree, after, ty, accepted => by
      rw [resolveSpecifier] at accepted
      obtain ⟨⟨members, middle⟩, found, built⟩ := bind_eq_ok.mp accepted
      obtain ⟨same, scalar⟩ := resolveMembers_spec scope specs [] tree middle members found
      have declarable (name : String) : (Ty.struct name members).isDeclarable = true :=
        isDeclarable_struct_iff.mpr (scalar (by simp))
      cases tag? with
      | none =>
          cases built
          exact ⟨same, fun _ => declarable _⟩
      | some tag =>
          cases built
          exact ⟨same.defineType scope tag fun _ => declarable _, fun _ => declarable _⟩
termination_by structural spec => spec

private theorem resolveMembers_spec (scope : ScopeId) :
    ∀ (specs : List Member) (found : List (String × Ty)) (tree after : ScopeTree)
      (members : List (String × Ty)),
      resolveMembers scope specs found tree = .ok (members, after) →
      SameSymbols tree after ∧ ((∀ member ∈ found, isCondition member.2 = true) →
        ∀ member ∈ members, isCondition member.2 = true)
  | [], found, tree, after, members, accepted => by
      cases accepted
      exact ⟨.refl tree, fun scalar => scalar⟩
  | .mk spec name isArray span :: rest, found, tree, after, members, accepted => by
      rw [resolveMembers] at accepted
      obtain ⟨⟨ty, middle⟩, resolved, continued⟩ := bind_eq_ok.mp accepted
      obtain ⟨same, _⟩ := resolveSpecifier_spec scope none span spec tree middle ty resolved
      simp only at continued
      split at continued
      · cases continued
      · rename_i scalarTy
        split at continued
        · cases continued
        · obtain ⟨sameRest, scalarRest⟩ :=
            resolveMembers_spec scope rest _ middle after members continued
          refine ⟨same.trans sameRest, fun scalar => scalarRest ?_⟩
          intro member listed
          rcases List.mem_append.mp listed with old | new
          · exact scalar member old
          · rw [List.mem_singleton.mp new]
            simp only [Bool.or_eq_true, Bool.not_eq_true', not_or, Bool.not_eq_false] at scalarTy
            exact scalarTy.2
termination_by structural specs => specs

end

def freeSlot (tree : ScopeTree) (scope : ScopeId) (ty : Ty) : Slot :=
  ⟨tree.region scope, if ty.isReference = true then (tree.layout scope).references
    else (tree.layout scope).scalars⟩

def variableSymbol (name : String) (ty : Ty) (slot : Slot) : Symbol :=
  ⟨name, ty, if ty.isReference = true then .reference slot else .scalar slot⟩

def layoutWith (tree : ScopeTree) (scope : ScopeId) (ty : Ty) : Layout :=
  (nextSlot (tree.region scope) ty (tree.layout scope)).2

private theorem le_layoutWith (tree : ScopeTree) (scope : ScopeId) (ty : Ty) :
    (tree.layout scope).Le (layoutWith tree scope ty) := by
  unfold layoutWith nextSlot
  split
  · exact ⟨Nat.le_refl _, Nat.le_succ _⟩
  · exact ⟨Nat.le_succ _, Nat.le_refl _⟩

/-- A new variable takes the first free slot of its frame. -/
theorem defineSlot_eq_ok {tree after : ScopeTree} {scope : ScopeId} {name : String} {ty : Ty}
    {span : Span} {slot : Slot}
    (accepted : defineSlot tree scope name ty span = .ok (slot, after)) :
    slot = freeSlot tree scope ty ∧
      after = tree.changed scope (Scope.withSymbol (variableSymbol name ty slot))
        (tree.layouts.setIfInBounds (tree.scopeAt scope).frame (layoutWith tree scope ty)) := by
  unfold defineSlot at accepted
  split at accepted
  · cases accepted
  · rename_i symbol defined found
    simp only [define?, Option.map_eq_some_iff, Prod.exists, Prod.mk.injEq] at found
    obtain ⟨inserted, middle, new, rfl, rfl⟩ := found
    obtain ⟨rfl, rfl⟩ := insert?_eq_some new
    by_cases reference : ty.isReference = true
    · simp only [nextSlot, if_pos reference] at accepted
      cases accepted
      simp only [freeSlot, variableSymbol, layoutWith, nextSlot, if_pos reference]
      exact ⟨trivial, rfl⟩
    · simp only [nextSlot, if_neg reference] at accepted
      cases accepted
      simp only [freeSlot, variableSymbol, layoutWith, nextSlot, if_neg reference]
      exact ⟨trivial, rfl⟩

theorem defineSlot_grows {tree after : ScopeTree} {scope : ScopeId} {name : String} {ty : Ty}
    {span : Span} {slot : Slot}
    (accepted : defineSlot tree scope name ty span = .ok (slot, after)) :
    Grows scope tree after := by
  obtain ⟨_, rfl⟩ := defineSlot_eq_ok accepted
  refine Grows.of_symbol scope _ Array.size_setIfInBounds ?_ ?_
  · intro frame other
    exact Array.getElem?_setIfInBounds_ne (Ne.symm other)
  · rw [Array.getElem?_setIfInBounds, if_pos rfl]
    split
    · exact le_layoutWith tree scope ty
    · rename_i outside
      rw [ScopeTree.layout, Array.getElem?_eq_none (Nat.le_of_not_lt outside)]
      exact Layout.Le.refl _

theorem defineSlot_layout {tree after : ScopeTree} {scope : ScopeId} {name : String} {ty : Ty}
    {span : Span} {slot : Slot} (frameInside : (tree.scopeAt scope).frame < tree.layouts.size)
    (accepted : defineSlot tree scope name ty span = .ok (slot, after)) :
    after.layout scope = layoutWith tree scope ty := by
  obtain ⟨_, rfl⟩ := defineSlot_eq_ok accepted
  rw [ScopeTree.layout,
    scopeAt_changed_view Scope.frame (Scope.withSymbol (variableSymbol name ty slot)) fun _ => rfl]
  simp only [changed, Array.getElem?_setIfInBounds_self_of_lt frameInside, Option.getD_some]

theorem defineSlot_resolve? {tree after : ScopeTree} {scope : ScopeId} {name : String} {ty : Ty}
    {span : Span} {slot : Slot}
    (accepted : defineSlot tree scope name ty span = .ok (slot, after)) {other : String}
    {symbol : Symbol} (resolved : after.resolve? scope other = some symbol) :
    symbol = variableSymbol name ty slot ∨ tree.resolve? scope other = some symbol := by
  obtain ⟨_, rfl⟩ := defineSlot_eq_ok accepted
  exact resolve?_of_symbol resolved

/-! ### Declarations -/

section Declarations

variable {scope : ScopeId} {base : Ty} {declarator : Declarator} {tree after : ScopeTree}
  {commands : List Command}

theorem lowerArray_eq_ok {length : Expr}
    (accepted : lowerArray scope base declarator length tree = .ok (commands, after)) :
    ∃ kind term index slot, base = .num kind ∧ lowerExpr scope length tree = .ok term ∧
      asIndex s!"size of array '{declarator.name}'" term = .ok index ∧
      defineSlot tree scope declarator.name (.array (.num kind)) declarator.span =
        .ok (slot, after) ∧
      commands = [.newArray slot kind index] := by
  unfold lowerArray at accepted
  simp only at accepted
  split at accepted
  · rename_i kind
    split at accepted
    · cases accepted
    · obtain ⟨term, lowered, rest⟩ := bind_eq_ok.mp accepted
      obtain ⟨index, converted, rest⟩ := bind_eq_ok.mp rest
      obtain ⟨⟨slot, grown⟩, defined, rest⟩ := bind_eq_ok.mp rest
      cases rest
      exact ⟨kind, term, index, slot, rfl, lowered, converted, defined, rfl⟩
  · cases accepted

theorem lowerStructVariable_eq_ok {structName : String} {members : List (String × Ty)}
    (accepted : lowerStructVariable scope base structName members declarator tree =
      .ok (commands, after)) :
    ∃ slot, defineSlot tree scope declarator.name base declarator.span = .ok (slot, after) ∧
      (commands = [.newStruct slot structName members] ∨
        ∃ init term, declarator.init? = some init ∧ lowerExpr scope init tree = .ok term ∧
          term.ty = base ∧
          commands = [.newStruct slot structName members,
            .expr (.mk base declarator.span (.assign (.whole slot) term))]) := by
  unfold lowerStructVariable at accepted
  obtain ⟨init?, lowered, rest⟩ := bind_eq_ok.mp accepted
  obtain ⟨⟨slot, grown⟩, defined, rest⟩ := bind_eq_ok.mp rest
  cases initAt : declarator.init? with
  | none =>
      rw [initAt] at lowered
      cases lowered
      cases rest
      exact ⟨slot, defined, Or.inl rfl⟩
  | some init =>
      rw [initAt] at lowered
      obtain ⟨term, loweredInit, rfl⟩ := map_eq_ok.mp lowered
      simp only at rest
      split at rest
      · rename_i sameTy
        cases rest
        exact ⟨slot, defined, Or.inr ⟨init, term, rfl, loweredInit, sameTy, rfl⟩⟩
      · cases rest

theorem lowerScalar_eq_ok
    (accepted : lowerScalar scope base declarator tree = .ok (commands, after)) :
    ∃ value slot, defineSlot tree scope declarator.name base declarator.span = .ok (slot, after) ∧
      commands = [.expr (.mk base declarator.span (.assign (.scalar slot) value))] ∧
      (value = .literal (.initial base) base declarator.span ∨
        ∃ init term, declarator.init? = some init ∧ lowerExpr scope init tree = .ok term ∧
          coerce term base = .ok value) := by
  unfold lowerScalar at accepted
  simp only at accepted
  split at accepted
  · rename_i init initAt
    obtain ⟨term, lowered, rest⟩ := bind_eq_ok.mp accepted
    obtain ⟨value, coerced, rest⟩ := bind_eq_ok.mp rest
    obtain ⟨⟨slot, grown⟩, defined, rest⟩ := bind_eq_ok.mp rest
    cases rest
    exact ⟨value, slot, defined, rfl, Or.inr ⟨init, term, initAt, lowered, coerced⟩⟩
  · obtain ⟨value, same, rest⟩ := bind_eq_ok.mp accepted
    cases same
    obtain ⟨⟨slot, grown⟩, defined, rest⟩ := bind_eq_ok.mp rest
    cases rest
    exact ⟨_, slot, defined, rfl, Or.inl rfl⟩

theorem lowerDeclarator_grows
    (accepted : lowerDeclarator scope base declarator tree = .ok (commands, after)) :
    Grows scope tree after := by
  unfold lowerDeclarator at accepted
  split at accepted
  · obtain ⟨_, _, _, _, _, _, _, defined, _⟩ := lowerArray_eq_ok accepted
    exact defineSlot_grows defined
  · split at accepted
    · obtain ⟨_, defined, _⟩ := lowerStructVariable_eq_ok accepted
      exact defineSlot_grows defined
    · obtain ⟨_, _, defined, _⟩ := lowerScalar_eq_ok accepted
      exact defineSlot_grows defined

theorem lowerDeclarators_cons_eq_ok {rest : List Declarator}
    (accepted : lowerDeclarators scope base (declarator :: rest) tree = .ok (commands, after)) :
    ∃ first middle others, base ≠ .void ∧
      lowerDeclarator scope base declarator tree = .ok (first, middle) ∧
      lowerDeclarators scope base rest middle = .ok (others, after) ∧
      commands = first ++ others := by
  rw [lowerDeclarators] at accepted
  split at accepted
  · cases accepted
  · rename_i notVoid
    obtain ⟨⟨first, middle⟩, lowered, continued⟩ := bind_eq_ok.mp accepted
    obtain ⟨⟨others, last⟩, loweredRest, done⟩ := bind_eq_ok.mp continued
    cases done
    exact ⟨first, middle, others, notVoid, lowered, loweredRest, rfl⟩

theorem lowerDeclarators_grows {declarators : List Declarator} (inside : scope < tree.scopes.size)
    (accepted : lowerDeclarators scope base declarators tree = .ok (commands, after)) :
    Grows scope tree after := by
  induction declarators generalizing tree commands with
  | nil =>
      cases accepted
      exact .refl scope after
  | cons declarator rest ih =>
      obtain ⟨first, middle, others, _, lowered, loweredRest, _⟩ :=
        lowerDeclarators_cons_eq_ok accepted
      have grown := lowerDeclarator_grows lowered
      exact grown.trans inside (ih (grown.inside inside) loweredRest)

theorem defineTypes_sameSymbols {start : ScopeTree} {declarators : List Declarator}
    (same : SameSymbols start tree) (declarable : start.TypesDeclarable → base.isDeclarable = true)
    (accepted : defineTypes scope base declarators tree = .ok after) : SameSymbols start after := by
  induction declarators generalizing tree with
  | nil =>
      cases accepted
      exact same
  | cons declarator rest ih =>
      rw [defineTypes] at accepted
      split at accepted
      · cases accepted
      · exact ih (same.defineType scope declarator.name declarable) accepted

/-- A declaration resolves its specifier, then names types or declares variables. -/
theorem lowerDeclaration_eq_ok {declaration : Declaration}
    (accepted : lowerDeclaration scope declaration tree = .ok (commands, after)) :
    ∃ base middle hint,
      resolveSpecifier scope hint declaration.span declaration.spec tree = .ok (base, middle) ∧
      ((commands = [] ∧ defineTypes scope base declaration.declarators middle = .ok after) ∨
        lowerDeclarators scope base declaration.declarators middle = .ok (commands, after)) := by
  unfold lowerDeclaration at accepted
  obtain ⟨⟨base, middle⟩, resolved, rest⟩ := bind_eq_ok.mp accepted
  simp only at rest
  split at rest
  · obtain ⟨last, named, done⟩ := bind_eq_ok.mp rest
    cases done
    exact ⟨base, middle, _, resolved, Or.inl ⟨rfl, named⟩⟩
  · exact ⟨base, middle, _, resolved, Or.inr rest⟩

theorem lowerDeclaration_grows {declaration : Declaration} (inside : scope < tree.scopes.size)
    (accepted : lowerDeclaration scope declaration tree = .ok (commands, after)) :
    Grows scope tree after := by
  obtain ⟨base, middle, hint, resolved, rest⟩ := lowerDeclaration_eq_ok accepted
  obtain ⟨same, baseDeclarable⟩ := resolveSpecifier_spec _ _ _ _ _ _ _ resolved
  have grown := same.grows scope
  rcases rest with ⟨_, named⟩ | lowered
  · exact (defineTypes_sameSymbols same baseDeclarable named).grows scope
  · exact grown.trans inside (lowerDeclarators_grows (grown.inside inside) lowered)

end Declarations

end MiniC.Lowering
