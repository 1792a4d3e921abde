import MiniC.Proofs.Machine.Binding

/-!
Structs that variables do not share.

The variables of a running program are the slots of the global frame and of every
active function. Those that count are the local ones and the global ones that
have been declared; no two of them refer to the same struct. A slot gets a new
reference only with storage that is new too, so what a variable refers to later
it has referred to before, or did not exist before.
-/

namespace MiniC

mutual

private theorem Heap.size_le_zeroOf :
    ∀ (ty : Ty) (heap : Heap), heap.size ≤ (Heap.zeroOf ty heap).2.size
  | .num _, _ | .bool, _ | .str, _ | .array _, _ | .func _ _, _ | .void, _ => Nat.le_refl _
  | .struct name members, heap => by
      have inner := Heap.size_le_zeroMembers members heap
      simp only [Heap.zeroOf, Heap.allocate, Array.size_push]
      omega
termination_by structural ty => ty

private theorem Heap.size_le_zeroMembers : ∀ (members : List (String × Ty)) (heap : Heap),
    heap.size ≤ (Heap.zeroMembers members heap).2.size
  | [], _ => Nat.le_refl _
  | (_, ty) :: rest, heap => by
      have first := Heap.size_le_zeroOf ty heap
      have others := Heap.size_le_zeroMembers rest (Heap.zeroOf ty heap).2
      simp only [Heap.zeroMembers]
      omega
termination_by structural members => members

end

namespace Machine

/-- A slot of the global frame, or of the function that so many calls lead back to. -/
inductive Holder where
  | global (index : Nat)
  | active (depth index : Nat)
deriving DecidableEq

namespace Holder

/-- The variables that count, of which the global ones are given. -/
def Counts (declared : Nat → Prop) : Holder → Prop
  | global index => declared index
  | active _ _ => True

def deeper : Holder → Holder
  | global index => global index
  | active depth index => active (depth + 1) index

theorem counts_deeper {declared : Nat → Prop} {holder : Holder} :
    holder.deeper.Counts declared ↔ holder.Counts declared := by
  cases holder <;> exact Iff.rfl

theorem deeper_injective {first second : Holder} (same : first.deeper = second.deeper) :
    first = second := by
  cases first <;> cases second <;> cases same <;> rfl

end Holder

def holderOf (slot : Slot) : Holder :=
  match slot.region with
  | .global => .global slot.index
  | .activation => .active 0 slot.index

theorem eq_of_holderOf {index : Nat} {slot : Slot} (same : .global index = holderOf slot) :
    slot = ⟨.global, index⟩ := by
  obtain ⟨region, other⟩ := slot
  cases region <;> cases same
  rfl

/-- What a variable refers to. The frames are those of the callers, from the innermost on. -/
def State.held? (state : State) (frames : List Frame) : Holder → Option Value
  | .global index => state.reference? ⟨.global, index⟩
  | .active 0 index => state.reference? ⟨.activation, index⟩
  | .active (depth + 1) index => frames[depth]?.bind fun frame => frame.reference? index

/-- The fields of the struct that a variable refers to. -/
def State.fields? (state : State) (frames : List Frame) (holder : Holder) : Option (Array Value) :=
  match state.held? frames holder with
  | some (.struct address) => state.world.heap[address]?.map Object.cells
  | _ => none

variable {structs declared more : Nat → Prop} {frames : List Frame}
  {state before middle last : State} {slot : Slot} {value : Value}

theorem held?_holderOf (state : State) (frames : List Frame) (slot : Slot) :
    state.held? frames (holderOf slot) = state.reference? slot := by
  obtain ⟨region, index⟩ := slot
  cases region <;> rfl

theorem held?_congr (same : ∀ slot, last.reference? slot = state.reference? slot)
    (holder : Holder) : last.held? frames holder = state.held? frames holder := by
  cases holder with
  | global index => exact same _
  | active depth index =>
      cases depth with
      | zero => exact same _
      | succ depth => rfl

theorem held?_setReference_of_ne {holder : Holder} (other : holder ≠ holderOf slot) :
    (state.setReference slot value).held? frames holder = state.held? frames holder := by
  have unchanged {here : Slot} (different : here ≠ slot) :
      (state.setReference slot value).reference? here = state.reference? here := by
    rw [State.reference?_setReference, if_neg different]
  cases holder with
  | global index =>
      refine unchanged ?_
      rintro rfl
      exact other rfl
  | active depth index =>
      cases depth with
      | succ depth => rfl
      | zero =>
          refine unchanged ?_
          rintro rfl
          exact other rfl

private theorem held?_setReference_self {found : Value}
    (holds : (state.setReference slot value).held? frames (holderOf slot) = some found) :
    found = value := by
  rw [held?_holderOf, State.reference?_setReference, if_pos rfl] at holds
  split at holds
  · cases holds
    rfl
  · cases holds

/-! ### Separation -/

/-- The declared globals are bound, and no two variables that count refer to the same struct. Those
global variables that refer to one are among the given ones. -/
structure Separate (structs declared : Nat → Prop) (frames : List Frame) (state : State) :
    Prop where
  listed : ∀ index address, state.held? frames (.global index) = some (.struct address) →
    structs index
  bound : ∀ index, declared index → state.Bound ⟨.global, index⟩
  allocated : ∀ holder address, holder.Counts declared →
    state.held? frames holder = some (.struct address) → address < state.world.heap.size
  distinct : ∀ first second address, first.Counts declared → second.Counts declared →
    state.held? frames first = some (.struct address) →
    state.held? frames second = some (.struct address) → first = second

/-- A separate state behind another one: structs that are referred to anew are new. -/
structure Renews (structs declared : Nat → Prop) (frames : List Frame) (state last : State) :
    Prop where
  separate : Separate structs declared frames last
  size_le : state.world.heap.size ≤ last.world.heap.size
  kept : ∀ holder address, holder.Counts declared →
    last.held? frames holder = some (.struct address) →
    state.held? frames holder = some (.struct address) ∨ state.world.heap.size ≤ address

theorem Renews.refl (separate : Separate structs declared frames state) :
    Renews structs declared frames state state :=
  ⟨separate, Nat.le_refl _, fun _ _ _ => Or.inl⟩

theorem Renews.trans (first : Renews structs declared frames state middle)
    (second : Renews structs declared frames middle last) :
    Renews structs declared frames state last where
  separate := second.separate
  size_le := Nat.le_trans first.size_le second.size_le
  kept := by
    intro holder address counts holds
    rcases second.kept holder address counts holds with same | new
    · exact first.kept holder address counts same
    · exact Or.inr (Nat.le_trans first.size_le new)

/-- What one variable referred to, no other one refers to later. -/
theorem Renews.eq_of_held? {first second : Holder} {address : Address}
    (renews : Renews structs declared frames state last)
    (separate : Separate structs declared frames state)
    (firstCounts : first.Counts declared) (secondCounts : second.Counts declared)
    (held : state.held? frames first = some (.struct address))
    (later : last.held? frames second = some (.struct address)) : first = second := by
  rcases renews.kept second address secondCounts later with same | new
  · exact separate.distinct first second address firstCounts secondCounts held same
  · exact absurd (separate.allocated first address firstCounts held) (Nat.not_lt.mpr new)

namespace Separate

theorem mono (separate : Separate structs more frames state)
    (fewer : ∀ index, declared index → more index) : Separate structs declared frames state := by
  have counts {holder : Holder} (counted : holder.Counts declared) : holder.Counts more := by
    cases holder with
    | global index => exact fewer index counted
    | active depth index => trivial
  refine ⟨separate.listed, fun index known => separate.bound index (fewer index known), ?_, ?_⟩
  · intro holder address counted
    exact separate.allocated holder address (counts counted)
  · intro first second address firstCounted secondCounted
    exact separate.distinct first second address (counts firstCounted) (counts secondCounted)

theorem counts {holder : Holder} {address : Address}
    (separate : Separate structs structs frames state)
    (held : state.held? frames holder = some (.struct address)) : holder.Counts structs := by
  cases holder with
  | global index => exact separate.listed index address held
  | active depth index => trivial

theorem unchanged (separate : Separate structs declared frames state)
    (same : ∀ slot, last.reference? slot = state.reference? slot)
    (grown : state.world.heap.size ≤ last.world.heap.size) :
    Renews structs declared frames state last where
  separate :=
    { listed := by
        intro index address holds
        rw [held?_congr same] at holds
        exact separate.listed index address holds
      bound := by
        intro index known
        unfold State.Bound
        rw [same]
        exact separate.bound index known
      allocated := by
        intro holder address counts holds
        rw [held?_congr same] at holds
        exact Nat.lt_of_lt_of_le (separate.allocated holder address counts holds) grown
      distinct := by
        intro first second address firstCounts secondCounts firstHolds secondHolds
        rw [held?_congr same] at firstHolds secondHolds
        exact separate.distinct first second address firstCounts secondCounts firstHolds
          secondHolds }
  size_le := grown
  kept := by
    intro holder address _ holds
    rw [held?_congr same] at holds
    exact Or.inl holds

/-- One slot is given a reference, and its variable may come to count. If it does, the struct is a
new one. -/
theorem put (separate : Separate structs declared frames state)
    (listed : ∀ index address, .global index = holderOf slot → value = .struct address →
      structs index)
    (known : ∀ index, more index →
      declared index ∨ (middle.setReference slot value).Bound ⟨.global, index⟩)
    (counted : ∀ holder, holder.Counts more → holder ≠ holderOf slot → holder.Counts declared)
    (fresh : (holderOf slot).Counts more → ∀ address, value = .struct address →
      state.world.heap.size ≤ address)
    (same : ∀ slot, middle.reference? slot = state.reference? slot)
    (grown : state.world.heap.size ≤ middle.world.heap.size)
    (inside : ∀ address, value = .struct address → address < middle.world.heap.size) :
    Separate structs more frames (middle.setReference slot value) ∧
      ∀ holder address, holder.Counts more →
        (middle.setReference slot value).held? frames holder = some (.struct address) →
        state.held? frames holder = some (.struct address) ∨ state.world.heap.size ≤ address := by
  -- what a variable refers to, it referred to before, or it is the one that is put there
  have origin {holder : Holder} {address : Address} (counts : holder.Counts more)
      (holds : (middle.setReference slot value).held? frames holder = some (.struct address)) :
      holder.Counts declared ∧ state.held? frames holder = some (.struct address) ∨
        holder = holderOf slot ∧ value = .struct address ∧ state.world.heap.size ≤ address := by
    by_cases here : holder = holderOf slot
    · subst here
      have put := held?_setReference_self holds
      exact Or.inr ⟨rfl, put.symm, fresh counts address put.symm⟩
    · rw [held?_setReference_of_ne here, held?_congr same] at holds
      exact Or.inl ⟨counted holder counts here, holds⟩
  refine ⟨⟨?_, ?_, ?_, ?_⟩, ?_⟩
  · intro index address holds
    by_cases here : Holder.global index = holderOf slot
    · rw [here] at holds
      exact listed index address here (held?_setReference_self holds).symm
    · rw [held?_setReference_of_ne here, held?_congr same] at holds
      exact separate.listed index address holds
  · intro index counts
    rcases known index counts with old | bound
    · refine State.Bound.setReference value ?_
      unfold State.Bound
      rw [same]
      exact separate.bound index old
    · exact bound
  · intro holder address counts holds
    rw [State.setReference_world]
    rcases origin counts holds with ⟨old, held⟩ | ⟨_, put, _⟩
    · exact Nat.lt_of_lt_of_le (separate.allocated holder address old held) grown
    · exact inside address put
  · intro first second address firstCounts secondCounts firstHolds secondHolds
    rcases origin firstCounts firstHolds with ⟨firstOld, firstHeld⟩ | ⟨firstIs, _, firstNew⟩
    · rcases origin secondCounts secondHolds with ⟨secondOld, secondHeld⟩ | ⟨_, _, secondNew⟩
      · exact separate.distinct first second address firstOld secondOld firstHeld secondHeld
      · exact absurd (separate.allocated first address firstOld firstHeld)
          (Nat.not_lt.mpr secondNew)
    · rcases origin secondCounts secondHolds with ⟨secondOld, secondHeld⟩ | ⟨secondIs, _, _⟩
      · exact absurd (separate.allocated second address secondOld secondHeld)
          (Nat.not_lt.mpr firstNew)
      · rw [firstIs, secondIs]
  · intro holder address counts holds
    rcases origin counts holds with ⟨_, held⟩ | ⟨_, _, new⟩
    · exact Or.inl held
    · exact Or.inr new

theorem renew (separate : Separate structs declared frames state)
    (listed : ∀ index address, .global index = holderOf slot → value = .struct address →
      structs index)
    (fresh : (holderOf slot).Counts declared → ∀ address, value = .struct address →
      state.world.heap.size ≤ address)
    (same : ∀ slot, middle.reference? slot = state.reference? slot)
    (grown : state.world.heap.size ≤ middle.world.heap.size)
    (inside : ∀ address, value = .struct address → address < middle.world.heap.size) :
    Renews structs declared frames state (middle.setReference slot value) := by
  obtain ⟨after, kept⟩ := separate.put listed (fun _ => Or.inl) (fun _ counts _ => counts) fresh
    same grown inside
  refine ⟨after, ?_, kept⟩
  rw [State.setReference_world]
  exact grown

theorem renewArray {address : Address} (separate : Separate structs declared frames state)
    (same : ∀ slot, middle.reference? slot = state.reference? slot)
    (grown : state.world.heap.size ≤ middle.world.heap.size) :
    Renews structs declared frames state (middle.setReference slot (.array address)) := by
  refine separate.renew ?_ ?_ same grown ?_
  · intro index other _ impossible
    cases impossible
  · intro _ other impossible
    cases impossible
  · intro other impossible
    cases impossible

end Separate

theorem fields?_congr {holder : Holder}
    (same : last.held? frames holder = before.held? frames holder)
    (unchanged : ∀ address : Address, before.held? frames holder = some (.struct address) →
      last.world.heap[address]? = before.world.heap[address]?) :
    last.fields? frames holder = before.fields? frames holder := by
  unfold State.fields?
  rw [same]
  split
  · rename_i address held
    rw [unchanged address held]
  · rfl

theorem fields?_setCell {holder : Holder} {address : Address} {index : Nat}
    (other : before.held? frames holder ≠ some (.struct address)) :
    (before.setCell address index value).fields? frames holder = before.fields? frames holder := by
  refine fields?_congr (held?_congr (fun _ => rfl) holder) ?_
  intro here held
  refine (Array.getElem?_modify).trans (if_neg ?_)
  rintro rfl
  exact other held

theorem fields?_copyFields {holder : Holder} {source target : Address}
    (other : before.held? frames holder ≠ some (.struct target)) :
    (before.copyFields source target).fields? frames holder = before.fields? frames holder := by
  refine fields?_congr (held?_congr (fun _ => rfl) holder) ?_
  intro here held
  change (before.world.heap.copyFields source target)[here]? = _
  unfold Heap.copyFields
  split
  · refine (Array.getElem?_modify).trans (if_neg ?_)
    rintro rfl
    exact other held
  · rfl

private theorem held?_entered {function : Function} {args : List Value} {holder : Holder}
    (holds : (state.entered function args).held? (state.locals :: frames) holder = some value) :
    ∃ outer, holder = outer.deeper ∧ state.held? frames outer = some value := by
  cases holder with
  | global index => exact ⟨.global index, rfl, holds⟩
  | active depth index =>
      cases depth with
      | zero =>
          -- the frame of the function is still empty
          change (Frame.new function.layout args).reference? index = some value at holds
          rw [Frame.reference?_new] at holds
          cases holds
      | succ depth =>
          refine ⟨.active depth index, rfl, ?_⟩
          cases depth <;> exact holds

theorem Separate.enter (separate : Separate structs declared frames state) (function : Function)
    (args : List Value) :
    Separate structs declared (state.locals :: frames) (state.entered function args) where
  listed := separate.listed
  bound := separate.bound
  allocated := by
    intro holder address counts holds
    obtain ⟨outer, rfl, held⟩ := held?_entered holds
    exact separate.allocated outer address (Holder.counts_deeper.mp counts) held
  distinct := by
    intro first second address firstCounts secondCounts firstHolds secondHolds
    obtain ⟨firstOuter, rfl, firstHeld⟩ := held?_entered firstHolds
    obtain ⟨secondOuter, rfl, secondHeld⟩ := held?_entered secondHolds
    rw [separate.distinct firstOuter secondOuter address (Holder.counts_deeper.mp firstCounts)
      (Holder.counts_deeper.mp secondCounts) firstHeld secondHeld]

theorem Leaves.size_le {function : Function} {caller : Frame} {inner : State}
    (leaves : Leaves function caller inner last) :
    inner.world.heap.size ≤ last.world.heap.size := by
  cases leaves with
  | plain => exact Nat.le_refl _
  | zero => exact Heap.size_le_zeroOf function.ret inner.world.heap

theorem Leaves.held? {function : Function} {inner : State} {caller : Frame}
    (leaves : Leaves function caller inner last) (holder : Holder) :
    last.held? frames holder = inner.held? (caller :: frames) holder.deeper := by
  cases leaves with
  | plain =>
      cases holder with
      | global index => rfl
      | active depth index => cases depth <;> rfl
  | zero =>
      cases holder with
      | global index => rfl
      | active depth index => cases depth <;> rfl

theorem Renews.leave {function : Function} {args : List Value} {inner : State}
    (renews : Renews structs declared (state.locals :: frames) (state.entered function args) inner)
    (leaves : Leaves function state.locals inner last) :
    Renews structs declared frames state last where
  separate :=
    { listed := by
        intro index address holds
        rw [leaves.held?] at holds
        exact renews.separate.listed index address holds
      bound := by
        intro index known
        rw [leaves.bound_iff]
        exact renews.separate.bound index known
      allocated := by
        intro holder address counts holds
        rw [leaves.held?] at holds
        refine Nat.lt_of_lt_of_le ?_ leaves.size_le
        exact renews.separate.allocated _ address (Holder.counts_deeper.mpr counts) holds
      distinct := by
        intro first second address firstCounts secondCounts firstHolds secondHolds
        rw [leaves.held?] at firstHolds secondHolds
        exact Holder.deeper_injective (renews.separate.distinct _ _ address
          (Holder.counts_deeper.mpr firstCounts) (Holder.counts_deeper.mpr secondCounts)
          firstHolds secondHolds) }
  size_le := Nat.le_trans renews.size_le leaves.size_le
  kept := by
    intro holder address counts holds
    rw [leaves.held?] at holds
    rcases renews.kept _ address (Holder.counts_deeper.mpr counts) holds with held | new
    · obtain ⟨outer, same, heldOutside⟩ := held?_entered held
      rw [Holder.deeper_injective same]
      exact Or.inl heldOutside
    · exact Or.inr new

/-- From a first point on, a point is reached while functions with the given frames are active,
beside the one that it belongs to. -/
inductive Point.Active (first : Point) : List Frame → Point → Prop where
  | here : Active first [] first
  | inner {frames : List Frame} {point next : Point} :
      Active first frames point → point.isCall = false → next ∈ point.calls →
      Active first frames next
  | enters {frames : List Frame} {point next : Point} :
      Active first frames point → point.isCall = true → next ∈ point.calls →
      Active first (point.state.locals :: frames) next

theorem Point.Active.within {first point reached : Point} (active : first.Active frames point)
    (within : point.Within reached) : ∃ others, first.Active others reached := by
  induction within generalizing frames with
  | here point => exact ⟨frames, active⟩
  | @deeper point next reached called _ ih =>
      cases isCall : point.isCall with
      | true => exact ih (active.enters isCall called)
      | false => exact ih (active.inner isCall called)

end Machine

end MiniC
