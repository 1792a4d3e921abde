import Mathlib.Data.List.Basic
import MiniC.Proofs.Scope.Calls
import MiniC.Proofs.Scope.Search

/-!
What every scope tree keeps that calls on its scopes have made.

A call adds a scope or a name, or it is refused. Scopes are added behind the ones
that are there, and a slot is counted in the layout of its frame at the moment it
is given out. So the slots of a frame stay numbered without a gap, whichever of
its scopes they were given to and in whatever order, and a name that is added to a
scope can be seen from the scopes inside it alone.
-/

namespace MiniC

def Storage.index? (kind : SlotKind) (storage : Storage) : Option Nat :=
  match storage.slot? with
  | some (found, slot) => if found = kind then some slot.index else none
  | none => none

/-- The indices that the symbols of a scope have in a frame. -/
def Scope.indices (kind : SlotKind) (frame : Nat) (scope : Scope) : List Nat :=
  if scope.frame = frame then scope.symbols.filterMap fun entry => entry.2.storage.index? kind
  else []

namespace ScopeTree

/-- The indices that all symbols of all scopes have in a frame. -/
def indices (tree : ScopeTree) (kind : SlotKind) (frame : Nat) : List Nat :=
  (List.range tree.scopes.size).flatMap fun id => (tree.scopeAt id).indices kind frame

/-- The next slot of a frame is the one behind all that are taken. -/
theorem range_nextSlot {region : Region} {ty : Ty} {layout counted : Layout} {storage : Storage}
    (next : nextSlot region ty layout = (storage, counted)) (kind : SlotKind) :
    ((storage.index? kind).toList ++ List.range (layout.count kind)).Perm
      (List.range (counted.count kind)) := by
  have grown (count : Nat) : ([count] ++ List.range count).Perm (List.range (count + 1)) := by
    rw [List.range_succ]
    exact List.perm_append_comm
  unfold nextSlot at next
  split at next
  · cases next
    cases kind with
    | scalar => exact .refl _
    | reference => exact grown layout.references
  · cases next
    cases kind with
    | scalar => exact grown layout.scalars
    | reference => exact .refl _

private theorem slot?_nextSlot {region : Region} {ty : Ty} {layout counted : Layout}
    {storage : Storage}
    {kind : SlotKind} {slot : Slot} (next : nextSlot region ty layout = (storage, counted))
    (found : storage.slot? = some (kind, slot)) : slot.region = region := by
  unfold nextSlot at next
  split at next
  · cases next
    cases found
    rfl
  · cases next
    cases found
    rfl

/-- What a list of parts gives when one of them has grown. -/
theorem flatMap_perm_of_grown {parts : List ScopeId} (distinct : parts.Nodup) {grown : ScopeId}
    (listed : grown ∈ parts) {before after : ScopeId → List Nat} {added : List Nat}
    (larger : after grown = added ++ before grown)
    (others : ∀ part, part ≠ grown → after part = before part) :
    (parts.flatMap after).Perm (added ++ parts.flatMap before) := by
  induction parts with
  | nil => cases listed
  | cons part parts ih =>
      obtain ⟨fresh, distinct⟩ := List.nodup_cons.mp distinct
      simp only [List.flatMap_cons]
      by_cases here : part = grown
      · subst here
        have rest : parts.flatMap after = parts.flatMap before := by
          refine List.flatMap_congr ?_
          intro other listed
          exact others other (fun same => fresh (same ▸ listed))
        rw [larger, rest, List.append_assoc]
      · have inRest : grown ∈ parts := (List.mem_cons.mp listed).resolve_left (Ne.symm here)
        rw [others part here]
        have moved := (ih distinct inRest).append_left (before part)
        refine moved.trans ?_
        rw [← List.append_assoc, ← List.append_assoc]
        exact List.perm_append_comm.append_right _

section Indices

variable {tree : ScopeTree} {scope : ScopeId} {kind : SlotKind} {frame : Nat}

def newIndices (tree : ScopeTree) (scope : ScopeId) (symbol : Symbol) (kind : SlotKind)
    (frame : Nat) : List Nat :=
  if (tree.scopeAt scope).frame = frame then (symbol.storage.index? kind).toList else []

private theorem indices_withSymbol (symbol : Symbol) :
    ((tree.scopeAt scope).withSymbol symbol).indices kind frame =
      tree.newIndices scope symbol kind frame ++ (tree.scopeAt scope).indices kind frame := by
  unfold Scope.indices newIndices
  by_cases here : (tree.scopeAt scope).frame = frame
  · have same : ((tree.scopeAt scope).withSymbol symbol).frame = frame := here
    rw [if_pos here, if_pos here, if_pos same, Scope.withSymbol, List.filterMap_cons]
    cases symbol.storage.index? kind <;> rfl
  · have other : ((tree.scopeAt scope).withSymbol symbol).frame ≠ frame := here
    rw [if_neg here, if_neg here, if_neg other]
    rfl

private theorem indices_changed_withSymbol (inside : scope < tree.scopes.size) (symbol : Symbol)
    (layouts : Array Layout) :
    ((tree.changed scope (Scope.withSymbol symbol) layouts).indices kind frame).Perm
      (tree.newIndices scope symbol kind frame ++ tree.indices kind frame) := by
  have size : (tree.changed scope (Scope.withSymbol symbol) layouts).scopes.size =
      tree.scopes.size :=
    Array.size_modify
  unfold indices
  rw [size]
  refine flatMap_perm_of_grown List.nodup_range (List.mem_range.mpr inside) ?_ ?_
  · rw [scopeAt_changed_self inside, indices_withSymbol]
  · intro other different
    rw [scopeAt_changed_of_ne different]

private theorem indices_changed_withType (name : String) (ty : Ty) :
    (tree.changed scope (Scope.withType name ty) tree.layouts).indices kind frame =
      tree.indices kind frame := by
  have size : (tree.changed scope (Scope.withType name ty) tree.layouts).scopes.size =
      tree.scopes.size :=
    Array.size_modify
  unfold indices
  rw [size]
  refine List.flatMap_congr ?_
  intro id _
  exact scopeAt_changed_view (Scope.indices kind frame) (Scope.withType name ty) (fun _ => rfl)

private theorem indices_addScope (tree : ScopeTree) (parent : ScopeId) (own : Nat) :
    (tree.addScope parent own).2.indices kind frame = tree.indices kind frame := by
  have size : (tree.addScope parent own).2.scopes.size = tree.scopes.size + 1 :=
    Array.size_push _
  have new : ((tree.addScope parent own).2.scopeAt tree.scopes.size).indices kind frame = [] := by
    rw [scopeAt_addScope_self]
    exact ite_self []
  unfold indices
  rw [size, List.range_succ, List.flatMap_append, List.flatMap_singleton, new, List.append_nil]
  refine List.flatMap_congr ?_
  intro id listed
  rw [scopeAt_addScope_of_lt (List.mem_range.mp listed)]

/-- No symbol has a slot in a frame that no scope has. -/
theorem indices_eq_nil (unused : ∀ id, id < tree.scopes.size → (tree.scopeAt id).frame ≠ frame) :
    tree.indices kind frame = [] := by
  refine List.flatMap_eq_nil_iff.mpr ?_
  intro id listed
  exact if_neg (unused id (List.mem_range.mp listed))

end Indices

/-! ### The invariant -/

/-- Every scope but the root stands in an earlier one, and every scope has a frame. -/
structure Shaped (tree : ScopeTree) : Prop where
  root_inside : root < tree.scopes.size
  root_frame : (tree.scopeAt root).frame = globalFrame
  ordered : tree.Ordered
  around : ∀ id, id < tree.scopes.size → id ≠ root →
    ∃ parent, (tree.scopeAt id).parent? = some parent
  frame_inside : ∀ id, id < tree.scopes.size → (tree.scopeAt id).frame < tree.layouts.size

structure Invariant (tree : ScopeTree) : Prop extends Shaped tree where
  distinct : ∀ id, ((tree.scopeAt id).symbols.map Prod.fst).Nodup
  filled : ∀ kind frame layout, tree.layouts[frame]? = some layout →
    (tree.indices kind frame).Perm (List.range (layout.count kind))
  regions : ∀ id entry kind slot, entry ∈ (tree.scopeAt id).symbols →
    entry.2.storage.slot? = some (kind, slot) → slot.region = tree.region id

private theorem scopeAt_initial (id : ScopeId) :
    initial.scopeAt id = ⟨none, globalFrame, [], []⟩ := by
  cases id <;> rfl

private theorem shaped_initial : Shaped .initial where
  root_inside := Nat.zero_lt_one
  root_frame := rfl
  ordered := by
    intro id parent around
    rw [scopeAt_initial] at around
    cases around
  around := by
    intro id inside other
    exact absurd (Nat.lt_one_iff.mp inside) other
  frame_inside := by
    intro id _
    rw [scopeAt_initial]
    exact Nat.zero_lt_one

private theorem invariant_initial : Invariant .initial where
  toShaped := shaped_initial
  distinct := by
    intro id
    rw [scopeAt_initial]
    exact List.nodup_nil
  filled := by
    intro kind frame layout listed
    have inside : frame < 1 := (Array.getElem?_eq_some_iff.mp listed).1
    obtain rfl := Nat.lt_one_iff.mp inside
    cases listed
    cases kind <;> exact .refl _
  regions := by
    intro id entry kind slot listed
    rw [scopeAt_initial] at listed
    cases listed

section Step

variable {tree : ScopeTree} {scope : ScopeId}

theorem Shaped.changed (shaped : tree.Shaped) {change : Scope → Scope} {layouts : Array Layout}
    (parents : ∀ entered, (change entered).parent? = entered.parent?)
    (frames : ∀ entered, (change entered).frame = entered.frame)
    (size : layouts.size = tree.layouts.size) :
    (tree.changed scope change layouts).Shaped := by
  have parent (id : ScopeId) :
      ((tree.changed scope change layouts).scopeAt id).parent? = (tree.scopeAt id).parent? :=
    scopeAt_changed_view Scope.parent? change parents
  have frame (id : ScopeId) :
      ((tree.changed scope change layouts).scopeAt id).frame = (tree.scopeAt id).frame :=
    scopeAt_changed_view Scope.frame change frames
  have scopes : (tree.changed scope change layouts).scopes.size = tree.scopes.size :=
    Array.size_modify
  refine ⟨scopes ▸ shaped.root_inside, (frame root).trans shaped.root_frame, ?_, ?_, ?_⟩
  · intro id outer around
    exact shaped.ordered id outer ((parent id).symm.trans around)
  · intro id inside other
    rw [parent]
    exact shaped.around id (scopes ▸ inside) other
  · intro id inside
    rw [frame]
    exact Nat.lt_of_lt_of_eq (shaped.frame_inside id (scopes ▸ inside)) size.symm

private theorem scopeAt_addScope_of_ne {id : ScopeId} {frame : Nat} (old : id ≠ tree.scopes.size) :
    (tree.addScope scope frame).2.scopeAt id = tree.scopeAt id := by
  simp only [addScope, scopeAt, Array.getElem?_push, if_neg old]

theorem Shaped.addScope (shaped : tree.Shaped) (inside : scope < tree.scopes.size) {frame : Nat}
    (frameInside : frame < tree.layouts.size) : (tree.addScope scope frame).2.Shaped := by
  have older {id : ScopeId} (bound : id < (tree.addScope scope frame).2.scopes.size)
      (old : id ≠ tree.scopes.size) : id < tree.scopes.size := by
    have size : (tree.addScope scope frame).2.scopes.size = tree.scopes.size + 1 :=
      Array.size_push _
    rw [size] at bound
    exact Nat.lt_of_le_of_ne (Nat.le_of_lt_succ bound) old
  have new := scopeAt_addScope_self tree scope frame
  refine ⟨?_, ?_, ?_, ?_, ?_⟩
  · exact Nat.lt_of_lt_of_eq (Nat.lt_succ_of_lt shaped.root_inside) (Array.size_push _).symm
  · rw [scopeAt_addScope_of_lt shaped.root_inside]
    exact shaped.root_frame
  · intro id parent around
    by_cases last : id = tree.scopes.size
    · rw [last, new] at around
      cases around
      exact last ▸ inside
    · rw [scopeAt_addScope_of_ne last] at around
      exact shaped.ordered id parent around
  · intro id bound other
    by_cases last : id = tree.scopes.size
    · rw [last, new]
      exact ⟨scope, rfl⟩
    · rw [scopeAt_addScope_of_ne last]
      exact shaped.around id (older bound last) other
  · intro id bound
    by_cases last : id = tree.scopes.size
    · rw [last, new]
      exact frameInside
    · rw [scopeAt_addScope_of_ne last]
      exact shaped.frame_inside id (older bound last)

theorem Invariant.addScope (invariant : tree.Invariant) (inside : scope < tree.scopes.size)
    {frame : Nat} (frameInside : frame < tree.layouts.size) :
    (tree.addScope scope frame).2.Invariant where
  toShaped := invariant.toShaped.addScope inside frameInside
  distinct := by
    intro id
    by_cases last : id = tree.scopes.size
    · rw [last, scopeAt_addScope_self]
      exact List.nodup_nil
    · rw [scopeAt_addScope_of_ne last]
      exact invariant.distinct id
  filled := by
    intro kind other layout listed
    rw [indices_addScope]
    exact invariant.filled kind other layout listed
  regions := by
    intro id entry kind slot listed found
    by_cases last : id = tree.scopes.size
    · rw [last, scopeAt_addScope_self] at listed
      cases listed
    · rw [scopeAt_addScope_of_ne last] at listed
      rw [region, isGlobal, scopeAt_addScope_of_ne last]
      exact invariant.regions id entry kind slot listed found

/-- A frame that no scope has yet. -/
theorem Invariant.pushLayout (invariant : tree.Invariant) :
    (ScopeTree.mk tree.scopes (tree.layouts.push ⟨0, 0⟩)).Invariant where
  root_inside := invariant.root_inside
  root_frame := invariant.root_frame
  ordered := invariant.ordered
  around := invariant.around
  frame_inside := by
    intro id inside
    rw [Array.size_push]
    exact Nat.lt_succ_of_lt (invariant.frame_inside id inside)
  distinct := invariant.distinct
  filled := by
    intro kind frame layout listed
    rw [Array.getElem?_push] at listed
    split at listed
    · rename_i last
      cases listed
      have unused : tree.indices kind frame = [] := by
        refine indices_eq_nil ?_
        intro id inside
        exact Nat.ne_of_lt (last ▸ invariant.frame_inside id inside)
      change (tree.indices kind frame).Perm _
      rw [unused]
      cases kind <;> exact .refl _
    · exact invariant.filled kind frame layout listed
  regions := invariant.regions

theorem Invariant.defineType (invariant : tree.Invariant) (name : String) (ty : Ty) :
    (tree.changed scope (Scope.withType name ty) tree.layouts).Invariant where
  toShaped := invariant.toShaped.changed (fun _ => rfl) (fun _ => rfl) rfl
  distinct := by
    intro id
    rw [scopeAt_changed_view Scope.symbols (Scope.withType name ty) (fun _ => rfl)]
    exact invariant.distinct id
  filled := by
    intro kind frame layout listed
    rw [indices_changed_withType]
    exact invariant.filled kind frame layout listed
  regions := by
    intro id entry kind slot listed found
    rw [scopeAt_changed_view Scope.symbols (Scope.withType name ty) (fun _ => rfl)] at listed
    rw [region, isGlobal,
      scopeAt_changed_view Scope.frame (Scope.withType name ty) (fun _ => rfl)]
    exact invariant.regions id entry kind slot listed found

/-- The layout of the scope's frame is one of the layouts. -/
theorem Shaped.layout_listed (shaped : tree.Shaped) (inside : scope < tree.scopes.size) :
    tree.layouts[(tree.scopeAt scope).frame]? = some (tree.layout scope) := by
  rw [layout, Array.getElem?_eq_getElem (shaped.frame_inside scope inside), Option.getD_some]

theorem Allots.size_eq {storage : Storage} {layouts : Array Layout}
    (allots : tree.Allots scope storage layouts) : layouts.size = tree.layouts.size := by
  cases allots with
  | nothing _ => rfl
  | slot _ => exact Array.size_setIfInBounds

theorem Allots.region {storage : Storage} {layouts : Array Layout} {kind : SlotKind} {slot : Slot}
    (allots : tree.Allots scope storage layouts) (found : storage.slot? = some (kind, slot)) :
    slot.region = tree.region scope := by
  cases allots with
  | nothing slotless =>
      rw [slotless] at found
      cases found
  | slot next => exact slot?_nextSlot next found

/-- Together with the new indices, a frame is numbered without a gap as before. -/
theorem Allots.filled {symbol : Symbol} {layouts : Array Layout} (invariant : tree.Invariant)
    (inside : scope < tree.scopes.size) (allots : tree.Allots scope symbol.storage layouts)
    {kind : SlotKind} {frame : Nat} {layout : Layout} (listed : layouts[frame]? = some layout) :
    (tree.newIndices scope symbol kind frame ++ tree.indices kind frame).Perm
      (List.range (layout.count kind)) := by
  unfold newIndices
  cases allots with
  | nothing slotless =>
      have none : symbol.storage.index? kind = none := by rw [Storage.index?, slotless]
      rw [none, Option.toList_none, ite_self]
      exact invariant.filled kind frame layout listed
  | slot next =>
      rw [Array.getElem?_setIfInBounds] at listed
      by_cases here : (tree.scopeAt scope).frame = frame
      · subst here
        rw [if_pos rfl, if_pos (invariant.frame_inside scope inside)] at listed
        cases listed
        rw [if_pos rfl]
        have before := invariant.filled kind _ _ (invariant.layout_listed inside)
        exact (before.append_left _).trans (range_nextSlot next kind)
      · rw [if_neg here] at listed
        rw [if_neg here]
        exact invariant.filled kind frame layout listed

theorem Invariant.insert {symbol : Symbol} {layouts : Array Layout} (invariant : tree.Invariant)
    (inside : scope < tree.scopes.size) (free : tree.resolveLocal? scope symbol.name = none)
    (allots : tree.Allots scope symbol.storage layouts) :
    (tree.changed scope (Scope.withSymbol symbol) layouts).Invariant where
  toShaped := invariant.toShaped.changed (fun _ => rfl) (fun _ => rfl) allots.size_eq
  distinct := by
    intro id
    by_cases here : id = scope
    · rw [here, scopeAt_changed_self inside]
      refine List.nodup_cons.mpr ⟨?_, invariant.distinct scope⟩
      intro listed
      obtain ⟨entry, found, same⟩ := List.mem_map.mp listed
      have different := List.lookup_eq_none_iff.mp free entry found
      exact bne_iff_ne.mp different same.symm
    · rw [scopeAt_changed_of_ne here]
      exact invariant.distinct id
  filled := by
    intro kind frame layout listed
    exact (indices_changed_withSymbol inside symbol layouts).trans
      (allots.filled invariant inside listed)
  regions := by
    intro id entry kind slot listed found
    rw [region, isGlobal, scopeAt_changed_view Scope.frame (Scope.withSymbol symbol) (fun _ => rfl)]
    by_cases here : id = scope
    · rw [here, scopeAt_changed_self inside] at listed
      rcases List.mem_cons.mp listed with rfl | older
      · exact here ▸ allots.region found
      · exact here ▸ invariant.regions scope entry kind slot older found
    · rw [scopeAt_changed_of_ne here] at listed
      exact invariant.regions id entry kind slot listed found

theorem Invariant.step {after : ScopeTree} (invariant : tree.Invariant)
    (inside : scope < tree.scopes.size) (effect : Effect tree scope after) : after.Invariant := by
  cases effect with
  | refused => exact invariant
  | block => exact invariant.addScope inside (invariant.frame_inside scope inside)
  | function =>
      refine invariant.pushLayout.addScope inside ?_
      rw [Array.size_push]
      exact Nat.lt_succ_self tree.layouts.size
  | symbol symbol layouts free allots => exact invariant.insert inside free allots
  | type name ty => exact invariant.defineType name ty

/-- A call leaves every other scope as it was. -/
theorem Effect.scopeAt_eq {after : ScopeTree} {id : ScopeId} (effect : Effect tree scope after)
    (bound : id < tree.scopes.size) (other : id ≠ scope) : after.scopeAt id = tree.scopeAt id := by
  cases effect with
  | refused => rfl
  | block => exact scopeAt_addScope_of_lt bound
  | function => exact scopeAt_functionScope_of_lt bound
  | symbol | type => exact scopeAt_changed_of_ne other

/-- A call on a scope can be seen from inside it alone. -/
theorem Effect.nearest?_eq {α : Type} {after : ScopeTree} {id : ScopeId}
    (effect : Effect tree scope after) (ordered : tree.Ordered) (bound : id < tree.scopes.size)
    (outside : ¬ tree.Encloses scope id) (find : Scope → Option α) :
    after.nearest? find id = tree.nearest? find id := by
  have same {outer : ScopeId} (encloses : tree.Encloses outer id) :
      after.scopeAt outer = tree.scopeAt outer := by
    refine effect.scopeAt_eq (Nat.lt_of_le_of_lt (encloses.le ordered) bound) ?_
    rintro rfl
    exact outside encloses
  refine nearest?_congr_of_encloses ordered id ?_ ?_
  · intro outer encloses
    rw [same encloses]
  · intro outer encloses
    rw [same encloses]

end Step

private theorem Reached.invariant {tree : ScopeTree} (reached : Reached tree) : tree.Invariant := by
  induction reached with
  | initial => exact invariant_initial
  | call call _ inside ih => exact ih.step inside (call.effect _)

/-- Whatever calls have made of a tree: scopes come after the scopes around them, no scope has a
name twice, the slots of every frame are numbered without a gap, exactly the slots of the root's
frame are global, an accepted call does what the tree's operation does and a refused one changes
nothing, a name means what the nearest scope says that has it, and a call on a scope is seen from
inside that scope alone. -/
theorem scopes_of_reached {tree : ScopeTree} (reached : Reached tree) :
    (∀ id, id < tree.scopes.size → id ≠ root →
      ∃ parent, (tree.scopeAt id).parent? = some parent ∧ parent < id) ∧
    (∀ id, ((tree.scopeAt id).symbols.map Prod.fst).Nodup) ∧
    (∀ id, id < tree.scopes.size →
      tree.layouts[(tree.scopeAt id).frame]? = some (tree.layout id)) ∧
    (∀ kind frame layout, tree.layouts[frame]? = some layout →
      (tree.indices kind frame).Perm (List.range (layout.count kind))) ∧
    (∀ id entry kind slot, entry ∈ (tree.scopeAt id).symbols →
      entry.2.storage.slot? = some (kind, slot) →
      (slot.region = .global ↔ (tree.scopeAt id).frame = (tree.scopeAt root).frame)) ∧
    (∀ (call : Call) answer after,
      call.perform tree = .ok answer after ↔ call.apply? tree = some (answer, after)) ∧
    (∀ (call : Call) name after, call.perform tree = .error name after → after = tree) ∧
    (∀ id name,
      tree.IsNearest (fun scope => scope.symbols.lookup name) id (tree.resolve? id name) ∧
      tree.IsNearest (fun scope => scope.types.lookup name) id (tree.resolveType? id name)) ∧
    (∀ (call : Call) id name, id < tree.scopes.size → ¬ tree.Encloses call.scope id →
      (call.perform.after tree).resolve? id name = tree.resolve? id name ∧
      (call.perform.after tree).resolveType? id name = tree.resolveType? id name) := by
  have invariant := reached.invariant
  refine ⟨?_, invariant.distinct, ?_, invariant.filled, ?_, ?_, ?_, ?_, ?_⟩
  · intro id inside other
    obtain ⟨parent, around⟩ := invariant.around id inside other
    exact ⟨parent, around, invariant.ordered id parent around⟩
  · intro id inside
    exact invariant.layout_listed inside
  · intro id entry kind slot listed found
    rw [invariant.regions id entry kind slot listed found, invariant.root_frame, region, isGlobal]
    by_cases global : (tree.scopeAt id).frame = globalFrame
    · rw [global, beq_self_eq_true, if_pos rfl]
      exact iff_of_true rfl rfl
    · rw [beq_eq_false_iff_ne.mpr global]
      exact iff_of_false (fun same => nomatch same) global
  · intro call answer after
    exact Call.perform_eq_ok_iff
  · intro call name after refused
    exact Call.eq_of_error refused
  · intro id name
    exact ⟨isNearest_nearest? invariant.ordered _ id, isNearest_nearest? invariant.ordered _ id⟩
  · intro call id name bound outside
    have effect := call.effect tree
    exact ⟨effect.nearest?_eq invariant.ordered bound outside _,
      effect.nearest?_eq invariant.ordered bound outside _⟩

/-- A function with a variable `x` and two blocks. The first has an array `x` of its own, is refused
another `x`, and the second has a variable `y`. -/
def twoBlocks : ScopeTree :=
  [Call.define 0 "g" (.num .i32), .functionScope 0, .define 1 "x" (.num .i32), .child 1,
    .define 2 "x" (.array (.num .i64)), .define 2 "x" (.num .i32), .child 1,
    .define 3 "y" (.num .i32)].foldl (fun tree call => call.perform.after tree) .initial

theorem scopes_of_twoBlocks :
    Reached twoBlocks ∧ (twoBlocks.indices .scalar 1).Perm (List.range 2) ∧
      (twoBlocks.indices .reference 1).Perm (List.range 1) := by
  have reached : Reached twoBlocks := by
    simp only [twoBlocks, List.foldl_cons, List.foldl_nil]
    refine .call _ (.call _ (.call _ (.call _ (.call _ (.call _ (.call _ (.call _ .initial
      ?_) ?_) ?_) ?_) ?_) ?_) ?_) ?_ <;> decide
  have filled := (scopes_of_reached reached).2.2.2.1
  exact ⟨reached, filled .scalar 1 ⟨2, 1⟩ rfl, filled .reference 1 ⟨2, 1⟩ rfl⟩

end ScopeTree
end MiniC
