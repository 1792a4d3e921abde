import MiniC.Proofs.ScopeTree

/-!
Scopes around a scope, and what a search outwards finds in them.
-/

namespace MiniC.ScopeTree

/-- The first scope is the second one or stands around it. -/
inductive Encloses (tree : ScopeTree) (outer : ScopeId) : ScopeId → Prop where
  | self : Encloses tree outer outer
  | parent {inner parent : ScopeId} : (tree.scopeAt inner).parent? = some parent →
      Encloses tree outer parent → Encloses tree outer inner

/-- The entry of the nearest scope around the inner one that has any: no scope between them has
one. Without an entry, no scope around the inner one has any. -/
def IsNearest {α : Type} (tree : ScopeTree) (find : Scope → Option α) (inner : ScopeId) :
    Option α → Prop
  | some entry => ∃ outer, tree.Encloses outer inner ∧ find (tree.scopeAt outer) = some entry ∧
      ∀ middle, tree.Encloses outer middle → tree.Encloses middle inner → middle ≠ outer →
        find (tree.scopeAt middle) = none
  | none => ∀ outer, tree.Encloses outer inner → find (tree.scopeAt outer) = none

def Ordered (tree : ScopeTree) : Prop :=
  ∀ id parent, (tree.scopeAt id).parent? = some parent → parent < id

section Search

variable {α : Type} {tree : ScopeTree} {find : Scope → Option α}

private theorem nearest?_of_some {id : ScopeId} {entry : α}
    (here : find (tree.scopeAt id) = some entry) :
    tree.nearest? find id = some entry := by
  rw [nearest?, here]

private theorem nearest?_of_parent {id parent : ScopeId} (ordered : tree.Ordered)
    (nothing : find (tree.scopeAt id) = none) (around : (tree.scopeAt id).parent? = some parent) :
    tree.nearest? find id = tree.nearest? find parent := by
  rw [nearest?]
  simp only [nothing, around, if_pos (ordered id parent around)]

private theorem nearest?_of_outermost {id : ScopeId} (nothing : find (tree.scopeAt id) = none)
    (outermost : (tree.scopeAt id).parent? = none) : tree.nearest? find id = none := by
  rw [nearest?]
  simp only [nothing, outermost]

theorem Encloses.le {outer inner : ScopeId} (ordered : tree.Ordered)
    (encloses : tree.Encloses outer inner) : outer ≤ inner := by
  induction encloses with
  | self => exact Nat.le_refl outer
  | parent around _ ih => exact Nat.le_trans ih (Nat.le_of_lt (ordered _ _ around))

private theorem encloses_iff_of_parent {outer inner parent : ScopeId}
    (around : (tree.scopeAt inner).parent? = some parent) :
    tree.Encloses outer inner ↔ outer = inner ∨ tree.Encloses outer parent := by
  constructor
  · intro encloses
    cases encloses with
    | self => exact Or.inl rfl
    | parent also rest =>
        rw [around] at also
        cases also
        exact Or.inr rest
  · rintro (rfl | encloses)
    · exact .self
    · exact .parent around encloses

private theorem Encloses.eq_of_outermost {outer inner : ScopeId}
    (outermost : (tree.scopeAt inner).parent? = none) (encloses : tree.Encloses outer inner) :
    outer = inner := by
  cases encloses with
  | self => rfl
  | parent around _ =>
      rw [outermost] at around
      cases around

/-- The search goes outwards scope by scope and stops at the first entry. -/
theorem isNearest_nearest? (ordered : tree.Ordered) (find : Scope → Option α) (id : ScopeId) :
    tree.IsNearest find id (tree.nearest? find id) := by
  induction id using Nat.strongRecOn with
  | ind id ih =>
      cases here : find (tree.scopeAt id) with
      | some entry =>
          rw [nearest?_of_some here]
          refine ⟨id, .self, here, ?_⟩
          intro middle lower upper different
          exact absurd (Nat.le_antisymm (upper.le ordered) (lower.le ordered)) different
      | none =>
          cases around : (tree.scopeAt id).parent? with
          | none =>
              rw [nearest?_of_outermost here around]
              intro outer encloses
              rw [encloses.eq_of_outermost around, here]
          | some parent =>
              have rest := ih parent (ordered id parent around)
              rw [nearest?_of_parent ordered here around]
              cases found : tree.nearest? find parent with
              | some entry =>
                  rw [found] at rest
                  obtain ⟨outer, encloses, has, between⟩ := rest
                  refine ⟨outer, .parent around encloses, has, ?_⟩
                  intro middle lower upper different
                  rcases (encloses_iff_of_parent around).mp upper with rfl | inside
                  · exact here
                  · exact between middle lower inside different
              | none =>
                  rw [found] at rest
                  intro outer encloses
                  rcases (encloses_iff_of_parent around).mp encloses with rfl | inside
                  · exact here
                  · exact rest outer inside

/-- A search sees only the scopes around the one it starts from. -/
theorem nearest?_congr_of_encloses {after : ScopeTree} (ordered : tree.Ordered) (id : ScopeId)
    (found : ∀ outer, tree.Encloses outer id →
      find (after.scopeAt outer) = find (tree.scopeAt outer))
    (parents : ∀ outer, tree.Encloses outer id →
      (after.scopeAt outer).parent? = (tree.scopeAt outer).parent?) :
    after.nearest? find id = tree.nearest? find id := by
  induction id using Nat.strongRecOn with
  | ind id ih =>
      rw [nearest?, nearest?, found id .self, parents id .self]
      cases find (tree.scopeAt id) with
      | some entry => rfl
      | none =>
          cases around : (tree.scopeAt id).parent? with
          | none => rfl
          | some parent =>
              have below := ordered id parent around
              simp only [if_pos below]
              exact ih parent below
                (fun outer encloses => found outer (.parent around encloses))
                (fun outer encloses => parents outer (.parent around encloses))

end Search

end MiniC.ScopeTree
