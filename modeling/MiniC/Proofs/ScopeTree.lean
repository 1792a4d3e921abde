import MiniC.Proofs.Typing.Judgement

/-!
How a scope tree grows.

Working inside one scope leaves every scope that was there in its place, adds
symbols to that scope alone and takes slots from its frame alone. So a name means
the same before and after, unless it was declared in the scope itself.
-/

namespace MiniC

structure Layout.Le (first second : Layout) : Prop where
  scalars : first.scalars ≤ second.scalars
  references : first.references ≤ second.references

theorem Layout.Le.refl (layout : Layout) : layout.Le layout :=
  ⟨Nat.le_refl _, Nat.le_refl _⟩

theorem Layout.Le.trans {first second third : Layout} (lower : first.Le second)
    (upper : second.Le third) : first.Le third :=
  ⟨Nat.le_trans lower.scalars upper.scalars, Nat.le_trans lower.references upper.references⟩

def Scope.withType (name : String) (ty : Ty) (scope : Scope) : Scope :=
  { scope with types := (name, ty) :: scope.types }

def Scope.withSymbol (symbol : Symbol) (scope : Scope) : Scope :=
  { scope with symbols := (symbol.name, symbol) :: scope.symbols }

namespace ScopeTree

theorem scopeAt_addScope_of_lt {tree : ScopeTree} {parent id : ScopeId} {frame : Nat}
    (inside : id < tree.scopes.size) :
    (tree.addScope parent frame).2.scopeAt id = tree.scopeAt id := by
  simp only [addScope, scopeAt, Array.getElem?_push_lt inside, Array.getElem?_eq_getElem inside]

theorem scopeAt_addScope_self (tree : ScopeTree) (parent : ScopeId) (frame : Nat) :
    (tree.addScope parent frame).2.scopeAt tree.scopes.size = ⟨some parent, frame, [], []⟩ := by
  simp only [addScope, scopeAt, Array.getElem?_push_size, Option.getD_some]

def changed (tree : ScopeTree) (id : ScopeId) (change : Scope → Scope) (layouts : Array Layout) :
    ScopeTree :=
  ⟨tree.scopes.modify id change, layouts⟩

section Changed

variable {tree : ScopeTree} {id other : ScopeId} {change : Scope → Scope} {layouts : Array Layout}

theorem scopeAt_changed_view {α : Type} (view : Scope → α) (change : Scope → Scope)
    (keeps : ∀ scope, view (change scope) = view scope) :
    view ((tree.changed id change layouts).scopeAt other) = view (tree.scopeAt other) := by
  simp only [changed, scopeAt, Array.getElem?_modify]
  split
  · cases tree.scopes[other]? with
    | none => rfl
    | some scope => exact keeps scope
  · rfl

theorem scopeAt_changed_of_ne (different : other ≠ id) :
    (tree.changed id change layouts).scopeAt other = tree.scopeAt other := by
  simp only [changed, scopeAt, Array.getElem?_modify, if_neg (Ne.symm different)]

theorem scopeAt_changed_self (inside : id < tree.scopes.size) :
    (tree.changed id change layouts).scopeAt id = change (tree.scopeAt id) := by
  simp only [changed, scopeAt, Array.getElem?_modify, if_pos, Array.getElem?_eq_getElem inside,
    Option.map_some, Option.getD_some]

theorem scopeAt_changed_outside (outside : ¬ id < tree.scopes.size) :
    (tree.changed id change layouts).scopeAt other = tree.scopeAt other := by
  by_cases same : other = id
  · simp only [changed, scopeAt, Array.getElem?_modify, same, if_pos,
      Array.getElem?_eq_none (Nat.le_of_not_lt outside), Option.map_none]
  · exact scopeAt_changed_of_ne same

end Changed

/-- A search sees only the scope it starts from and scopes with smaller numbers. -/
theorem nearest?_congr {α : Type} {find : Scope → Option α} {first second : ScopeTree}
    (id : ScopeId)
    (found : ∀ other, other ≤ id → find (second.scopeAt other) = find (first.scopeAt other))
    (parents : ∀ other, other ≤ id →
      (second.scopeAt other).parent? = (first.scopeAt other).parent?) :
    second.nearest? find id = first.nearest? find id := by
  induction id using Nat.strongRecOn with
  | ind id ih =>
      rw [nearest?, nearest?, found id (Nat.le_refl id), parents id (Nat.le_refl id)]
      cases find (first.scopeAt id) with
      | some symbol => rfl
      | none =>
          cases (first.scopeAt id).parent? with
          | none => rfl
          | some parent =>
              by_cases below : parent < id
              · simp only [if_pos below]
                exact ih parent below
                  (fun other bound => found other (Nat.le_trans bound (Nat.le_of_lt below)))
                  (fun other bound => parents other (Nat.le_trans bound (Nat.le_of_lt below)))
              · simp only [if_neg below]

theorem exists_of_nearest?_eq_some {α : Type} {find : Scope → Option α} {tree : ScopeTree}
    {id : ScopeId} {found : α} (search : tree.nearest? find id = some found) :
    ∃ other, find (tree.scopeAt other) = some found := by
  induction id using Nat.strongRecOn with
  | ind id ih =>
      rw [nearest?] at search
      split at search
      · rename_i here
        rw [search] at here
        exact ⟨id, here⟩
      · split at search
        · cases search
        · split at search
          · rename_i below
            exact ih _ below search
          · cases search

theorem nearest?_addScope {α : Type} {find : Scope → Option α} {tree : ScopeTree}
    {parent : ScopeId} {frame : Nat} (inside : parent < tree.scopes.size)
    (nothing : find ⟨some parent, frame, [], []⟩ = none) :
    (tree.addScope parent frame).2.nearest? find tree.scopes.size = tree.nearest? find parent := by
  rw [nearest?, scopeAt_addScope_self, nothing]
  simp only [if_pos inside]
  refine nearest?_congr parent ?_ ?_
  · intro other bound
    rw [scopeAt_addScope_of_lt (Nat.lt_of_le_of_lt bound inside)]
  · intro other bound
    rw [scopeAt_addScope_of_lt (Nat.lt_of_le_of_lt bound inside)]

def TypesDeclarable (tree : ScopeTree) : Prop :=
  ∀ id name ty, (tree.scopeAt id).types.lookup name = some ty → ty.isDeclarable = true

theorem defineType_eq (tree : ScopeTree) (scope : ScopeId) (name : String) (ty : Ty) :
    tree.defineType scope name ty = tree.changed scope (Scope.withType name ty) tree.layouts :=
  rfl

theorem TypesDeclarable.addScope {tree : ScopeTree} (declarable : tree.TypesDeclarable)
    (parent : ScopeId) (frame : Nat) : (tree.addScope parent frame).2.TypesDeclarable := by
  intro id name ty named
  simp only [ScopeTree.addScope, scopeAt, Array.getElem?_push] at named
  split at named
  · cases named
  · exact declarable id name ty named

theorem TypesDeclarable.resolve {tree : ScopeTree} (declarable : tree.TypesDeclarable)
    {scope : ScopeId} {name : String} {ty : Ty} (named : tree.resolveType? scope name = some ty) :
    ty.isDeclarable = true := by
  obtain ⟨id, found⟩ := exists_of_nearest?_eq_some named
  exact declarable id name ty found

theorem TypesDeclarable.defineType {tree : ScopeTree} (declarable : tree.TypesDeclarable)
    (scope : ScopeId) (name : String) {ty : Ty} (new : ty.isDeclarable = true) :
    (tree.defineType scope name ty).TypesDeclarable := by
  intro id other otherTy named
  rw [defineType_eq] at named
  by_cases inside : scope < tree.scopes.size
  · by_cases same : id = scope
    · rw [same, scopeAt_changed_self inside, Scope.withType, List.lookup_cons] at named
      split at named
      · cases named
        exact new
      · exact declarable scope other otherTy named
    · rw [scopeAt_changed_of_ne same] at named
      exact declarable id other otherTy named
  · rw [scopeAt_changed_outside inside] at named
    exact declarable id other otherTy named

/-! ### Growth -/

/-- What work inside one scope does to the tree. -/
structure Grows (scope : ScopeId) (before after : ScopeTree) : Prop where
  size_le : before.scopes.size ≤ after.scopes.size
  parent_eq : ∀ id, id < before.scopes.size →
    (after.scopeAt id).parent? = (before.scopeAt id).parent?
  frame_eq : ∀ id, id < before.scopes.size →
    (after.scopeAt id).frame = (before.scopeAt id).frame
  symbols_eq : ∀ id, id < before.scopes.size → id ≠ scope →
    (after.scopeAt id).symbols = (before.scopeAt id).symbols
  layouts_size : after.layouts.size = before.layouts.size
  layout_eq : ∀ frame, frame ≠ (before.scopeAt scope).frame →
    after.layouts[frame]? = before.layouts[frame]?
  layout_le : (before.layout scope).Le (after.layout scope)
  types : before.TypesDeclarable → after.TypesDeclarable

namespace Grows

theorem refl (scope : ScopeId) (tree : ScopeTree) : Grows scope tree tree where
  size_le := Nat.le_refl _
  parent_eq := fun _ _ => rfl
  frame_eq := fun _ _ => rfl
  symbols_eq := fun _ _ _ => rfl
  layouts_size := rfl
  layout_eq := fun _ _ => rfl
  layout_le := Layout.Le.refl _
  types := fun declarable => declarable

theorem trans {scope : ScopeId} {first second third : ScopeTree}
    (inside : scope < first.scopes.size) (lower : Grows scope first second)
    (upper : Grows scope second third) : Grows scope first third where
  size_le := Nat.le_trans lower.size_le upper.size_le
  parent_eq := by
    intro id bound
    rw [upper.parent_eq id (Nat.lt_of_lt_of_le bound lower.size_le), lower.parent_eq id bound]
  frame_eq := by
    intro id bound
    rw [upper.frame_eq id (Nat.lt_of_lt_of_le bound lower.size_le), lower.frame_eq id bound]
  symbols_eq := by
    intro id bound other
    rw [upper.symbols_eq id (Nat.lt_of_lt_of_le bound lower.size_le) other,
      lower.symbols_eq id bound other]
  layouts_size := upper.layouts_size.trans lower.layouts_size
  layout_eq := by
    intro frame other
    rw [upper.layout_eq frame (by rw [lower.frame_eq scope inside]; exact other),
      lower.layout_eq frame other]
  layout_le := lower.layout_le.trans upper.layout_le
  types := fun declarable => upper.types (lower.types declarable)

theorem inside {scope : ScopeId} {before after : ScopeTree} (grown : Grows scope before after)
    {id : ScopeId} (bound : id < before.scopes.size) : id < after.scopes.size :=
  Nat.lt_of_lt_of_le bound grown.size_le

/-- Names that were visible outside the scope mean the same. -/
theorem resolve?_eq {scope id : ScopeId} {before after : ScopeTree}
    (grown : Grows scope before after) (bound : id < before.scopes.size) (outer : id < scope)
    (name : String) : after.resolve? id name = before.resolve? id name := by
  refine nearest?_congr id ?_ ?_
  · intro other below
    rw [grown.symbols_eq other (Nat.lt_of_le_of_lt below bound)
      (Nat.ne_of_lt (Nat.lt_of_le_of_lt below outer))]
  · intro other below
    exact grown.parent_eq other (Nat.lt_of_le_of_lt below bound)

theorem region_eq {scope id : ScopeId} {before after : ScopeTree}
    (grown : Grows scope before after) (bound : id < before.scopes.size) :
    after.region id = before.region id := by
  unfold region isGlobal
  rw [grown.frame_eq id bound]

theorem other_layout_eq {scope id : ScopeId} {before after : ScopeTree}
    (grown : Grows scope before after) (bound : id < before.scopes.size)
    (other : (before.scopeAt id).frame ≠ (before.scopeAt scope).frame) :
    after.layout id = before.layout id := by
  simp only [layout, grown.frame_eq id bound, grown.layout_eq _ other]

end Grows

/-- Scopes, symbols and slots are the same; only types may have new names. -/
structure SameSymbols (before after : ScopeTree) : Prop where
  size_eq : after.scopes.size = before.scopes.size
  parent_eq : ∀ id, (after.scopeAt id).parent? = (before.scopeAt id).parent?
  frame_eq : ∀ id, (after.scopeAt id).frame = (before.scopeAt id).frame
  symbols_eq : ∀ id, (after.scopeAt id).symbols = (before.scopeAt id).symbols
  layouts_eq : after.layouts = before.layouts
  types : before.TypesDeclarable → after.TypesDeclarable

namespace SameSymbols

theorem refl (tree : ScopeTree) : SameSymbols tree tree where
  size_eq := rfl
  parent_eq := fun _ => rfl
  frame_eq := fun _ => rfl
  symbols_eq := fun _ => rfl
  layouts_eq := rfl
  types := fun declarable => declarable

theorem trans {first second third : ScopeTree} (lower : SameSymbols first second)
    (upper : SameSymbols second third) : SameSymbols first third where
  size_eq := upper.size_eq.trans lower.size_eq
  parent_eq := fun id => (upper.parent_eq id).trans (lower.parent_eq id)
  frame_eq := fun id => (upper.frame_eq id).trans (lower.frame_eq id)
  symbols_eq := fun id => (upper.symbols_eq id).trans (lower.symbols_eq id)
  layouts_eq := upper.layouts_eq.trans lower.layouts_eq
  types := fun declarable => upper.types (lower.types declarable)

theorem defineType {start tree : ScopeTree} (same : SameSymbols start tree) (scope : ScopeId)
    (name : String) {ty : Ty} (new : start.TypesDeclarable → ty.isDeclarable = true) :
    SameSymbols start (tree.defineType scope name ty) where
  size_eq := Array.size_modify.trans same.size_eq
  parent_eq := by
    intro id
    rw [defineType_eq, scopeAt_changed_view Scope.parent? (Scope.withType name ty) (fun _ => rfl),
      same.parent_eq]
  frame_eq := by
    intro id
    rw [defineType_eq, scopeAt_changed_view Scope.frame (Scope.withType name ty) (fun _ => rfl),
      same.frame_eq]
  symbols_eq := by
    intro id
    rw [defineType_eq, scopeAt_changed_view Scope.symbols (Scope.withType name ty) (fun _ => rfl),
      same.symbols_eq]
  layouts_eq := same.layouts_eq
  types := fun declarable => (same.types declarable).defineType scope name (new declarable)

theorem layout_eq {before after : ScopeTree} (same : SameSymbols before after) (id : ScopeId) :
    after.layout id = before.layout id := by
  simp only [layout, same.layouts_eq, same.frame_eq id]

theorem resolve?_eq {before after : ScopeTree} (same : SameSymbols before after) (id : ScopeId)
    (name : String) : after.resolve? id name = before.resolve? id name := by
  refine nearest?_congr id ?_ ?_
  · intro other _
    rw [same.symbols_eq other]
  · intro other _
    exact same.parent_eq other

theorem grows {before after : ScopeTree} (same : SameSymbols before after) (scope : ScopeId) :
    Grows scope before after where
  size_le := Nat.le_of_eq same.size_eq.symm
  parent_eq := fun id _ => same.parent_eq id
  frame_eq := fun id _ => same.frame_eq id
  symbols_eq := fun id _ _ => same.symbols_eq id
  layouts_size := congrArg Array.size same.layouts_eq
  layout_eq := by
    intro frame _
    rw [same.layouts_eq]
  layout_le := by
    rw [same.layout_eq]
    exact Layout.Le.refl _
  types := same.types

end SameSymbols

theorem insert?_eq_some {tree after : ScopeTree} {scope : ScopeId} {symbol inserted : Symbol}
    (new : tree.insert? scope symbol = some (inserted, after)) :
    inserted = symbol ∧ after = tree.changed scope (Scope.withSymbol symbol) tree.layouts := by
  unfold insert? at new
  split at new
  · cases new
  · cases new
    exact ⟨rfl, rfl⟩

theorem Grows.of_symbol {tree : ScopeTree} (scope : ScopeId) (symbol : Symbol)
    {layouts : Array Layout} (size : layouts.size = tree.layouts.size)
    (others : ∀ frame, frame ≠ (tree.scopeAt scope).frame →
      layouts[frame]? = tree.layouts[frame]?)
    (larger : (tree.layout scope).Le ((layouts[(tree.scopeAt scope).frame]?).getD default)) :
    Grows scope tree (tree.changed scope (Scope.withSymbol symbol) layouts) where
  size_le := Nat.le_of_eq Array.size_modify.symm
  parent_eq := by
    intro id _
    rw [scopeAt_changed_view Scope.parent? (Scope.withSymbol symbol) (fun _ => rfl)]
  frame_eq := by
    intro id _
    rw [scopeAt_changed_view Scope.frame (Scope.withSymbol symbol) (fun _ => rfl)]
  symbols_eq := by
    intro id _ other
    rw [scopeAt_changed_of_ne other]
  layouts_size := size
  layout_eq := others
  layout_le := by
    have frame : ((tree.changed scope (Scope.withSymbol symbol) layouts).scopeAt scope).frame =
        (tree.scopeAt scope).frame :=
      scopeAt_changed_view Scope.frame (Scope.withSymbol symbol) (fun _ => rfl)
    have found : (tree.changed scope (Scope.withSymbol symbol) layouts).layout scope =
        (layouts[(tree.scopeAt scope).frame]?).getD default := by
      rw [ScopeTree.layout, frame]
      rfl
    rw [found]
    exact larger
  types := by
    intro declarable id name ty named
    rw [scopeAt_changed_view Scope.types (Scope.withSymbol symbol) (fun _ => rfl)] at named
    exact declarable id name ty named

theorem resolve?_of_symbol {tree : ScopeTree} {scope : ScopeId} {symbol found : Symbol}
    {layouts : Array Layout} {name : String}
    (resolved : (tree.changed scope (Scope.withSymbol symbol) layouts).resolve? scope name =
      some found) :
    found = symbol ∨ tree.resolve? scope name = some found := by
  have parents (other : ScopeId) :
      ((tree.changed scope (Scope.withSymbol symbol) layouts).scopeAt other).parent? =
        (tree.scopeAt other).parent? :=
    scopeAt_changed_view Scope.parent? (Scope.withSymbol symbol) (fun _ => rfl)
  -- below the scope itself nothing is different
  have outer {parent : ScopeId} (below : parent < scope) :
      (tree.changed scope (Scope.withSymbol symbol) layouts).resolve? parent name =
        tree.resolve? parent name := by
    refine nearest?_congr parent ?_ (fun other _ => parents other)
    intro other bound
    rw [scopeAt_changed_of_ne (Nat.ne_of_lt (Nat.lt_of_le_of_lt bound below))]
  by_cases inside : scope < tree.scopes.size
  · unfold resolve? at resolved outer ⊢
    rw [nearest?, parents scope, scopeAt_changed_self inside, Scope.withSymbol,
      List.lookup_cons] at resolved
    rw [nearest?]
    by_cases this : (name == symbol.name) = true
    · rw [this] at resolved
      exact Or.inl (Option.some.inj resolved).symm
    · rw [Bool.not_eq_true] at this
      rw [this] at resolved
      refine Or.inr ?_
      rw [← resolved]
      cases (tree.scopeAt scope).symbols.lookup name with
      | some other => rfl
      | none =>
          cases (tree.scopeAt scope).parent? with
          | none => rfl
          | some parent =>
              by_cases below : parent < scope
              · simp only [if_pos below, outer below]
              · simp only [if_neg below]
  · refine Or.inr ?_
    rw [← resolved]
    refine (nearest?_congr scope ?_ (fun other _ => parents other)).symm
    intro other _
    rw [scopeAt_changed_outside inside]

section Child

variable {tree : ScopeTree} {scope : ScopeId}

theorem child_inside (tree : ScopeTree) (scope : ScopeId) :
    (tree.child scope).1 < (tree.child scope).2.scopes.size := by
  simp only [child, addScope, Array.size_push]
  exact Nat.lt_succ_self _

theorem child_frame (tree : ScopeTree) (scope : ScopeId) :
    ((tree.child scope).2.scopeAt (tree.child scope).1).frame = (tree.scopeAt scope).frame := by
  have found := scopeAt_addScope_self tree scope (tree.scopeAt scope).frame
  change ((tree.addScope scope (tree.scopeAt scope).frame).2.scopeAt tree.scopes.size).frame = _
  rw [found]

theorem resolve?_child (inside : scope < tree.scopes.size) (name : String) :
    (tree.child scope).2.resolve? (tree.child scope).1 name = tree.resolve? scope name :=
  nearest?_addScope inside rfl

theorem region_child (tree : ScopeTree) (scope : ScopeId) :
    (tree.child scope).2.region (tree.child scope).1 = tree.region scope := by
  unfold region isGlobal
  rw [child_frame]

theorem layout_child (tree : ScopeTree) (scope : ScopeId) :
    (tree.child scope).2.layout (tree.child scope).1 = tree.layout scope := by
  simp only [layout, child_frame]
  rfl

/-- Work inside a block is work inside the scope around it. -/
theorem Grows.of_child {after : ScopeTree} (inside : scope < tree.scopes.size)
    (grown : Grows (tree.child scope).1 (tree.child scope).2 after) : Grows scope tree after := by
  have size : (tree.child scope).2.scopes.size = tree.scopes.size + 1 := by
    simp only [child, addScope, Array.size_push]
  have wider {id : ScopeId} (bound : id < tree.scopes.size) :
      id < (tree.child scope).2.scopes.size := by
    rw [size]
    exact Nat.lt_succ_of_lt bound
  have old {id : ScopeId} (bound : id < tree.scopes.size) :
      (tree.child scope).2.scopeAt id = tree.scopeAt id :=
    scopeAt_addScope_of_lt bound
  have innerFrame : (after.scopeAt (tree.child scope).1).frame = (tree.scopeAt scope).frame := by
    rw [grown.frame_eq _ (child_inside tree scope), child_frame]
  have outerFrame : (after.scopeAt scope).frame = (tree.scopeAt scope).frame := by
    rw [grown.frame_eq scope (wider inside), old inside]
  refine
    { size_le := ?_
      parent_eq := ?_
      frame_eq := ?_
      symbols_eq := ?_
      layouts_size := grown.layouts_size
      layout_eq := ?_
      layout_le := ?_
      types := fun declarable => grown.types (declarable.addScope scope _) }
  · have bound := grown.size_le
    omega
  · intro id bound
    rw [grown.parent_eq id (wider bound), old bound]
  · intro id bound
    rw [grown.frame_eq id (wider bound), old bound]
  · intro id bound _
    have outer : id ≠ (tree.child scope).1 := Nat.ne_of_lt bound
    rw [grown.symbols_eq id (wider bound) outer, old bound]
  · intro frame other
    exact grown.layout_eq frame (by rw [child_frame]; exact other)
  · have grew := grown.layout_le
    rw [layout_child] at grew
    have same : after.layout scope = after.layout (tree.child scope).1 := by
      simp only [layout, innerFrame, outerFrame]
    rw [same]
    exact grew

theorem Grows.layout_of_child {after : ScopeTree} (inside : scope < tree.scopes.size)
    (grown : Grows (tree.child scope).1 (tree.child scope).2 after) :
    after.layout (tree.child scope).1 = after.layout scope := by
  have inner := grown.frame_eq _ (child_inside tree scope)
  rw [child_frame] at inner
  have outer := (Grows.of_child inside grown).frame_eq scope inside
  simp only [layout, inner, outer]

end Child

section FunctionScope

variable {tree : ScopeTree} {parent id : ScopeId}

theorem functionScope_inside (tree : ScopeTree) (parent : ScopeId) :
    (tree.functionScope parent).1 < (tree.functionScope parent).2.scopes.size := by
  simp only [functionScope, addScope, Array.size_push]
  exact Nat.lt_succ_self _

theorem scopeAt_functionScope_of_lt (bound : id < tree.scopes.size) :
    (tree.functionScope parent).2.scopeAt id = tree.scopeAt id := by
  simp only [functionScope, addScope, scopeAt, Array.getElem?_push_lt bound,
    Array.getElem?_eq_getElem bound]

theorem functionScope_frame (tree : ScopeTree) (parent : ScopeId) :
    ((tree.functionScope parent).2.scopeAt (tree.functionScope parent).1).frame =
      tree.layouts.size := by
  simp only [functionScope, addScope, scopeAt, Array.getElem?_push_size, Option.getD_some]

theorem functionScope_layouts_size (tree : ScopeTree) (parent : ScopeId) :
    (tree.functionScope parent).2.layouts.size = tree.layouts.size + 1 := by
  simp only [functionScope, addScope, Array.size_push]

theorem layout_functionScope_of_lt (bound : id < tree.scopes.size)
    (frameInside : (tree.scopeAt id).frame < tree.layouts.size) :
    (tree.functionScope parent).2.layout id = tree.layout id := by
  rw [layout, layout, scopeAt_functionScope_of_lt bound]
  simp only [functionScope, addScope, Array.getElem?_push_lt frameInside,
    Array.getElem?_eq_getElem frameInside]

theorem resolve?_functionScope_of_lt (bound : id < tree.scopes.size) (name : String) :
    (tree.functionScope parent).2.resolve? id name = tree.resolve? id name := by
  refine nearest?_congr id ?_ ?_
  · intro other below
    rw [scopeAt_functionScope_of_lt (Nat.lt_of_le_of_lt below bound)]
  · intro other below
    rw [scopeAt_functionScope_of_lt (Nat.lt_of_le_of_lt below bound)]

theorem resolve?_functionScope (bound : parent < tree.scopes.size) (name : String) :
    (tree.functionScope parent).2.resolve? (tree.functionScope parent).1 name =
      tree.resolve? parent name := by
  have seen : (tree.functionScope parent).2.resolve? (tree.functionScope parent).1 name =
      resolve? ⟨tree.scopes, tree.layouts.push ⟨0, 0⟩⟩ parent name :=
    nearest?_addScope bound rfl
  rw [seen]
  exact nearest?_congr parent (fun _ _ => rfl) (fun _ _ => rfl)

theorem TypesDeclarable.functionScope (declarable : tree.TypesDeclarable) (parent : ScopeId) :
    (tree.functionScope parent).2.TypesDeclarable := by
  have same : TypesDeclarable ⟨tree.scopes, tree.layouts.push ⟨0, 0⟩⟩ := declarable
  exact same.addScope parent tree.layouts.size

end FunctionScope

end ScopeTree
end MiniC
