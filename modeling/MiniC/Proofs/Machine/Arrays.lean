import MiniC.Proofs.Builtin.Heap
import MiniC.Proofs.Machine.History

/-!
Arrays while a program runs.

An array is made with its kind and its length, and nothing that runs changes
either of them: writes replace single elements, and the builtins that fill an
array keep its length. No array is longer than a declaration may make it.
-/

namespace MiniC

open Machine

def Object.array? : Object → Option (Kind × Nat)
  | .array kind elements => some (kind, elements.size)
  | .struct _ _ _ => none

namespace Heap

def array? (heap : Heap) (address : Address) : Option (Kind × Nat) :=
  heap[address]?.bind Object.array?

/-- Every array of the first heap is still there, of the same kind and length. -/
def KeepsArrays (before after : Heap) : Prop :=
  ∀ address kind length, before.array? address = some (kind, length) →
    after.array? address = some (kind, length)

/-- Arrays are as long as a declaration may make them. -/
def Moderate (heap : Heap) : Prop :=
  ∀ address kind length, heap.array? address = some (kind, length) → length ≤ maxArrayLength

theorem moderate_empty : Heap.empty.Moderate := by
  intro address kind length impossible
  cases impossible

theorem exists_of_array? {heap : Heap} {address : Address} {kind : Kind} {length : Nat}
    (found : heap.array? address = some (kind, length)) :
    ∃ elements, heap[address]? = some (.array kind elements) ∧ elements.size = length := by
  obtain ⟨object, here, isArray⟩ := Option.bind_eq_some_iff.mp found
  cases object with
  | struct name members fields => cases isArray
  | array kind elements =>
      cases isArray
      exact ⟨elements, here, rfl⟩

theorem array?_of_getElem? {heap : Heap} {address : Address} {kind : Kind}
    {elements : Array Value} (found : heap[address]? = some (.array kind elements)) :
    heap.array? address = some (kind, elements.size) := by
  rw [array?, found]
  rfl

private theorem array?_push (heap : Heap) (object : Object) (address : Address) :
    Heap.array? (heap.push object) address =
      if address = heap.size then object.array? else heap.array? address := by
  unfold array?
  rw [Array.getElem?_push]
  split
  · rfl
  · rfl

private theorem array?_modify (heap : Heap) (target : Address) {change : Object → Object}
    (kept : ∀ object, (change object).array? = object.array?) (address : Address) :
    Heap.array? (heap.modify target change) address = heap.array? address := by
  unfold array?
  rw [Array.getElem?_modify]
  split
  · cases heap[address]? with
    | none => rfl
    | some object => exact kept object
  · rfl

end Heap

/-- The arrays of the first heap are those of the second, but for new ones of a fair length. -/
structure Heap.GrowsArrays (before after : Heap) : Prop where
  kept : before.KeepsArrays after
  moderate : before.Moderate → after.Moderate

namespace Heap.GrowsArrays

variable {heap : Heap}

theorem refl (heap : Heap) : heap.GrowsArrays heap := ⟨fun _ _ _ found => found, id⟩

theorem trans {first second third : Heap} (lower : first.GrowsArrays second)
    (upper : second.GrowsArrays third) : first.GrowsArrays third :=
  ⟨fun address kind length found =>
      upper.kept address kind length (lower.kept address kind length found),
    upper.moderate ∘ lower.moderate⟩

private theorem of_array?_eq {after : Heap}
    (same : ∀ address, after.array? address = heap.array? address) :
    heap.GrowsArrays after where
  kept := by
    intro address kind length found
    rw [same]
    exact found
  moderate := by
    intro moderate address kind length found
    rw [same] at found
    exact moderate address kind length found

theorem modify (target : Address) {change : Object → Object}
    (kept : ∀ object, (change object).array? = object.array?) :
    heap.GrowsArrays (heap.modify target change) :=
  of_array?_eq (heap.array?_modify target kept)

theorem push {object : Object}
    (fair : ∀ kind length, object.array? = some (kind, length) → heap.Moderate →
      length ≤ maxArrayLength) :
    heap.GrowsArrays (heap.push object) where
  kept := by
    intro address kind length found
    have bound : address < heap.size := by
      obtain ⟨elements, here, _⟩ := exists_of_array? found
      exact (Array.getElem?_eq_some_iff.mp here).1
    rw [array?_push, if_neg (Nat.ne_of_lt bound)]
    exact found
  moderate := by
    intro moderate address kind length found
    rw [array?_push] at found
    split at found
    · exact fair kind length found moderate
    · exact moderate address kind length found

theorem setCell (address : Address) (index : Nat) (value : Value) :
    heap.GrowsArrays (heap.setCell address index value) := by
  refine modify address ?_
  intro object
  cases object with
  | array kind elements => simp only [Object.setCell, Object.array?, Array.size_setIfInBounds]
  | struct name members fields => rfl

theorem copyFields (source target : Address) :
    heap.GrowsArrays (heap.copyFields source target) := by
  unfold Heap.copyFields
  split
  · refine modify target ?_
    intro object
    cases object with
    | array kind elements => rfl
    | struct name members fields => rfl
  · exact refl heap

theorem newArray (kind : Kind) {length : Nat} (fair : length ≤ maxArrayLength) :
    heap.GrowsArrays (heap.newArray kind length).2 := by
  refine push ?_
  intro other count same _
  cases same
  rw [Array.size_replicate]
  exact fair

mutual

theorem zeroOf : ∀ (ty : Ty) (heap : Heap), heap.GrowsArrays (Heap.zeroOf ty heap).2
  | .num _, heap => refl heap
  | .bool, heap => refl heap
  | .str, heap => refl heap
  | .array _, heap => refl heap
  | .func _ _, heap => refl heap
  | .void, heap => refl heap
  | .struct name members, heap => by
      rw [Heap.zeroOf]
      refine (zeroMembers members heap).trans (push ?_)
      intro kind length impossible
      cases impossible

theorem zeroMembers :
    ∀ (members : List (String × Ty)) (heap : Heap),
      heap.GrowsArrays (Heap.zeroMembers members heap).2
  | [], heap => refl heap
  | (_, ty) :: rest, heap => by
      rw [Heap.zeroMembers]
      exact (zeroOf ty heap).trans (zeroMembers rest _)

end

theorem copy (value : Value) : heap.GrowsArrays (heap.copy value).2 := by
  have copied {address : Address} {object : Object} (found : heap[address]? = some object) :
      heap.GrowsArrays (heap.push object) := by
    refine push ?_
    intro kind length isArray moderate
    exact moderate address kind length (by rw [array?, found]; exact isArray)
  unfold Heap.copy
  split
  · split
    · rename_i found
      exact copied found
    · exact refl heap
  · split
    · rename_i found
      exact copied found
    · exact refl heap
  · exact refl heap

theorem overwrite (target : Address) (numbers : List Int32) :
    heap.GrowsArrays (heap.modify target (Builtin.overwrite numbers)) := by
  refine modify target ?_
  intro object
  cases object with
  | struct name members fields => rfl
  | array kind elements =>
      simp only [Builtin.overwrite, Object.array?, Array.size_append, List.size_toArray,
        List.length_map, List.length_take, Array.size_extract, Option.some.injEq,
        Prod.mk.injEq, true_and]
      omega

theorem invoke (builtin : Builtin) (args : List Value) (world : World) :
    world.heap.GrowsArrays (builtin.invoke args world).world.heap := by
  refine Builtin.invoke_heap builtin (refl _) ?_
  intro first second numbers others
  exact (overwrite first numbers).trans (overwrite second others)

end Heap.GrowsArrays

/-! ### Steps of the machine -/

namespace Machine

variable {point : Point} {state before last : State}

def State.GrowsArrays (before after : State) : Prop :=
  before.world.heap.GrowsArrays after.world.heap

theorem newArray_eq (slot : Slot) (kind : Kind) (size : Int64) (state : State) :
    newArray slot kind size state =
      if 0 ≤ size.toInt ∧ size.toInt ≤ maxArrayLength then
        .done () (state.allocated slot (·.newArray kind size.toInt.toNat))
      else .failed ⟨.invalidArraySize size, []⟩ state := by
  unfold newArray
  simp only
  split
  · rfl
  · rfl

private theorem State.growsArrays_allocated (slot : Slot) {operation : Heap → Value × Heap}
    (grows : state.world.heap.GrowsArrays (operation state.world.heap).2) :
    state.GrowsArrays (state.allocated slot operation) := by
  unfold GrowsArrays allocated
  rw [setReference_world]
  exact grows

private theorem store_growsArrays {location : Location} {value written : Value}
    (stored : store location value state = .done written last) : state.GrowsArrays last := by
  unfold State.GrowsArrays
  cases location with
  | scalar slot =>
      cases stored
      rw [State.setScalar_world]
      exact .refl _
  | element address index =>
      cases stored
      exact .setCell address index value
  | field address index =>
      cases stored
      exact .setCell address index value
  | whole slot =>
      rw [store_whole] at stored
      split at stored
      · cases stored
        exact .copyFields _ _
      · cases stored
        rw [State.setReference_world]
        exact .refl _

theorem Point.Changes.growsArrays (changes : point.Changes before last) :
    before.GrowsArrays last := by
  cases changes with
  | none _ => exact .refl _
  | assign _ _ stored => exact store_growsArrays stored
  | update _ _ _ stored => exact store_growsArrays stored
  | invoke _ ended =>
      rw [invoke_last? ended]
      exact .invoke _ _ _
  | copy _ => exact .copy _
  | @newArray _ _ count slot kind _ size _ _ _ created =>
      rw [newArray_eq] at created
      split at created
      · rename_i fair
        rw [← (Outcome.done.inj created).2]
        refine State.growsArrays_allocated slot (.newArray kind ?_)
        rw [Int.toNat_of_nonneg fair.1]
        exact fair.2
      · cases created
  | newStruct => exact State.growsArrays_allocated _ (.zeroOf _ _)
  | bind _ =>
      unfold State.GrowsArrays
      rw [State.setReference_world]
      exact .refl _

theorem Leaves.growsArrays {function : Function} {caller : Frame} {inner : State}
    (leaves : Leaves function caller inner last) : inner.GrowsArrays last := by
  cases leaves with
  | plain => exact .refl _
  | zero => exact .zeroOf _ _

theorem Point.growsArrays (ended : point.last? = some last) : point.state.GrowsArrays last := by
  refine @Point.end_induction (fun point last => point.state.GrowsArrays last) ?_ ?_ point last
    ended
  · intro point before last _ _ each threads changes
    have calls : point.state.GrowsArrays before :=
      threads.kept (fun next called last ended grown => grown.trans (each next called last ended))
        (.refl _)
    exact calls.trans changes.growsArrays
  · intro context fuel id args state function body inner last _ _ inside leaves
    exact inside.trans leaves.growsArrays

/-- Calls that have ended leave the arrays that were there when the first of them started. -/
theorem Threads.growsArrays {points : List Point} (threads : Threads state points last) :
    state.GrowsArrays last :=
  threads.kept (fun _ _ _ ended grown => grown.trans (Point.growsArrays ended)) (.refl _)

/-- Whatever a point leads to finds the arrays that the point has found. -/
theorem Point.Within.growsArrays {reached : Point} (within : point.Within reached) :
    point.state.GrowsArrays reached.state := by
  induction within with
  | here point => exact .refl _
  | @deeper first second third called _ ih =>
      refine Heap.GrowsArrays.trans ?_ ih
      cases isCall : first.isCall with
      | false =>
          obtain ⟨earlier, behind, split⟩ := List.append_of_mem called
          exact ((Point.runs isCall).starts earlier second behind split).growsArrays
      | true =>
          obtain ⟨_, _, function, args, start⟩ := Point.entered_of_call isCall called
          rw [start]
          exact .refl _

theorem Visits.growsArrays {fuel : Nat} {program : Program} {entry : FunctionId} {limit : Nat}
    {world : World} (visited : Visits fuel program entry limit world point) :
    (State.initial program world).GrowsArrays point.state := by
  obtain ⟨first, listed, within⟩ := visited
  obtain ⟨earlier, behind, split⟩ := List.append_of_mem listed
  exact (runPoints_starts split).growsArrays.trans within.growsArrays

end Machine
end MiniC
