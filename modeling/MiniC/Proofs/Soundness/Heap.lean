import MiniC.Builtin.Invoke
import MiniC.Proofs.Lowering.Growth

/-!
Well-typed heaps.

What the scalars of a program hold is a parameter: values of just their types, or
less than that. Objects keep their types and their lengths for ever, so a
reference that is well typed once stays so while the heap grows and its cells
change.
-/

namespace MiniC

@[simp]
theorem ArithOp.ty?_apply {op : ArithOp} {kind : Kind}
    (supported : (kind.isInteger || op.onFloats) = true) (left right : Value) :
    (op.apply kind left right).ty? = some (.num kind) := by
  cases kind with
  | i32 => rfl
  | u32 => rfl
  | i64 => rfl
  | u64 => rfl
  | f32 => cases op <;> first | rfl | cases supported
  | f64 => cases op <;> first | rfl | cases supported

theorem UnaryFn.ty?_negate (kind : Kind) (value : Value) :
    ((UnaryFn.negate kind).apply value).ty? = some (.num kind) := by
  cases kind <;> rfl

theorem UnaryFn.ty?_bitNot {kind : Kind} (integer : kind.isInteger = true) (value : Value) :
    ((UnaryFn.bitNot kind).apply value).ty? = some (.num kind) := by
  cases kind <;> first | rfl | cases integer

def Ty.cell? : Ty → Nat → Option Ty
  | .array element, _ => some element
  | .struct _ members, index => members[index]?.map Prod.snd
  | _, _ => none

def Object.shape : Object → Ty × Nat
  | .array kind elements => (.array (.num kind), elements.size)
  | .struct name members fields => (.struct name members, fields.size)

theorem Object.cells_size (object : Object) : object.cells.size = object.shape.2 := by
  cases object <;> rfl

private theorem Object.shape_setCell (object : Object) (index : Nat) (value : Value) :
    (object.setCell index value).shape = object.shape := by
  cases object with
  | array kind elements => simp only [setCell, shape, Array.size_setIfInBounds]
  | struct name members fields => simp only [setCell, shape, Array.size_setIfInBounds]

private theorem Object.cells_setCell (object : Object) (index : Nat) (value : Value) :
    (object.setCell index value).cells = object.cells.setIfInBounds index value := by
  cases object <;> rfl

def Heap.shape? (heap : Heap) (address : Address) : Option (Ty × Nat) :=
  heap[address]?.map Object.shape

theorem Heap.exists_of_shape? {heap : Heap} {address : Address} {shape : Ty × Nat}
    (found : heap.shape? address = some shape) :
    ∃ object, heap[address]? = some object ∧ object.shape = shape :=
  Option.map_eq_some_iff.mp found

private theorem Heap.shape?_of_getElem? {heap : Heap} {address : Address} {object : Object}
    (found : heap[address]? = some object) : heap.shape? address = some object.shape := by
  rw [Heap.shape?, found]
  rfl

def Heap.Extends (before after : Heap) : Prop :=
  ∀ address shape, before.shape? address = some shape → after.shape? address = some shape

theorem Heap.Extends.refl (heap : Heap) : heap.Extends heap :=
  fun _ _ found => found

theorem Heap.Extends.trans {first second third : Heap} (lower : first.Extends second)
    (upper : second.Extends third) : first.Extends third :=
  fun address shape found => upper address shape (lower address shape found)

private theorem Heap.extends_push (heap : Heap) (object : Object) :
    heap.Extends (heap.push object) := by
  intro address shape found
  obtain ⟨old, before, rfl⟩ := exists_of_shape? found
  have bound : address < heap.size := (Array.getElem?_eq_some_iff.mp before).1
  rw [shape?, Array.getElem?_push_lt bound, ← Array.getElem?_eq_getElem bound, before]
  rfl

theorem Heap.shape?_modify (heap : Heap) (target : Address) {change : Object → Object}
    (kept : ∀ object, heap[target]? = some object → (change object).shape = object.shape)
    (address : Address) :
    Heap.shape? (heap.modify target change) address = heap.shape? address := by
  simp only [shape?, Array.getElem?_modify]
  split
  · rename_i same
    subst same
    cases found : heap[target]? with
    | none => rfl
    | some object => exact congrArg some (kept object found)
  · rfl

namespace Soundness

open Lowering Typing

/-- What a run promises of the values of its scalars. -/
structure Guarantee where
  admits : Ty → Value → Prop
  /-- Whether a scalar holds a value of just its own type. -/
  exact : Bool
  /-- Whether global variables may be used before their declarations have run. -/
  early : Bool
  /-- Whether arguments may be missing, so that a variable refers to nothing. -/
  lacking : Bool
  early_of_lacking : lacking = true → early = true
  typed : ∀ {ty : Ty} {value : Value}, value.ty? = some ty → admits ty value
  same : exact = true → ∀ {ty : Ty} {value : Value}, admits ty value → value.ty? = some ty
  mixed : exact = false → ∀ {kind other : Kind} {value : Value},
    value.ty? = some (.num other) → admits (.num kind) value

namespace Guarantee

def sameType : Guarantee where
  admits := fun ty value => value.ty? = some ty
  exact := true
  early := false
  lacking := false
  early_of_lacking := fun impossible => by cases impossible
  typed := fun typed => typed
  same := fun _ _ _ typed => typed
  mixed := fun impossible => by cases impossible

private theorem exitCode?_isSome {value : Value} {ty : Ty} (typed : value.ty? = some ty)
    (scalar : isCondition ty = true) : value.exitCode?.isSome = true := by
  cases value with
  | str text => cases typed; cases scalar
  | array address => cases typed
  | struct address => cases typed
  | void => cases typed
  | _ => rfl

/-- Every scalar holds a number of some kind, or a truth value. -/
def number (early : Bool) : Guarantee where
  admits := fun ty value => isCondition ty = true → value.exitCode?.isSome = true
  exact := false
  early := early
  lacking := false
  early_of_lacking := fun impossible => by cases impossible
  typed := fun typed scalar => exitCode?_isSome typed scalar
  same := fun impossible => by cases impossible
  mixed := fun _ _ _ _ typed _ => exitCode?_isSome typed rfl

def anything : Guarantee where
  admits := fun _ _ => True
  exact := false
  early := true
  lacking := false
  early_of_lacking := fun impossible => by cases impossible
  typed := fun _ => trivial
  same := fun impossible => by cases impossible
  mixed := fun _ _ _ _ _ => trivial

/-- The value stands for an argument that is missing. -/
def Lacks (G : Guarantee) (value : Value) : Prop := G.lacking = true ∧ value = .void

end Guarantee

/-! ### Typed heaps -/

variable {G : Guarantee} {heap after : Heap}

structure ObjectTyped (G : Guarantee) (object : Object) : Prop where
  cells : ∀ index ty value, object.shape.1.cell? index = some ty →
    object.cells[index]? = some value → G.admits ty value
  complete : ∀ name members, object.shape.1 = .struct name members →
    object.shape.2 = members.length

def HeapTyped (G : Guarantee) (heap : Heap) : Prop :=
  ∀ (address : Address) object, heap[address]? = some object → ObjectTyped G object

theorem HeapTyped.empty (G : Guarantee) : HeapTyped G .empty := by
  intro address object impossible
  cases impossible

/-- A value of a type. References are to objects of just that type. -/
def HasType (G : Guarantee) (heap : Heap) (value : Value) : Ty → Prop
  | .array element =>
      (∃ address size, value = .array address ∧
        heap.shape? address = some (.array element, size)) ∨ G.Lacks value
  | .struct name members =>
      (∃ address size, value = .struct address ∧
        heap.shape? address = some (.struct name members, size)) ∨ G.Lacks value
  | .void => True
  | ty => G.admits ty value

theorem HasType.exists_array {value : Value} {element : Ty} (present : G.lacking = false)
    (typed : HasType G heap value (.array element)) :
    ∃ address size, value = .array address ∧
      heap.shape? address = some (.array element, size) := by
  rcases typed with found | ⟨lacking, _⟩
  · exact found
  · rw [present] at lacking
    cases lacking

theorem HasType.exists_struct {value : Value} {name : String} {members : List (String × Ty)}
    (present : G.lacking = false) (typed : HasType G heap value (.struct name members)) :
    ∃ address size, value = .struct address ∧
      heap.shape? address = some (.struct name members, size) := by
  rcases typed with found | ⟨lacking, _⟩
  · exact found
  · rw [present] at lacking
    cases lacking

theorem HasType.mono {value : Value} {ty : Ty} (extended : heap.Extends after)
    (typed : HasType G heap value ty) : HasType G after value ty := by
  cases ty with
  | array element =>
      refine typed.imp_left ?_
      rintro ⟨address, size, same, found⟩
      exact ⟨address, size, same, extended address _ found⟩
  | struct name members =>
      refine typed.imp_left ?_
      rintro ⟨address, size, same, found⟩
      exact ⟨address, size, same, extended address _ found⟩
  | num kind => exact typed
  | bool => exact typed
  | str => exact typed
  | func params ret => exact typed
  | void => trivial

theorem hasType_of_ty? {value : Value} {ty : Ty} (typed : value.ty? = some ty) :
    HasType G heap value ty := by
  cases ty with
  | array element => cases value <;> cases typed
  | struct name members => cases value <;> cases typed
  | num kind => exact G.typed typed
  | bool => exact G.typed typed
  | str => exact G.typed typed
  | func params ret => exact G.typed typed
  | void => trivial

theorem hasType_iff_admits {value : Value} {ty : Ty} (scalar : isCondition ty = true) :
    HasType G heap value ty ↔ G.admits ty value := by
  rcases isCondition_iff.mp scalar with ⟨kind, rfl⟩ | rfl
  · exact Iff.rfl
  · exact Iff.rfl

def CellTyped (heap : Heap) (address : Address) (index : Nat) (ty : Ty) : Prop :=
  ∃ shape, heap.shape? address = some shape ∧ shape.1.cell? index = some ty ∧ index < shape.2

theorem CellTyped.mono {address : Address} {index : Nat} {ty : Ty}
    (extended : heap.Extends after) (typed : CellTyped heap address index ty) :
    CellTyped after address index ty := by
  obtain ⟨shape, found, cell, bound⟩ := typed
  exact ⟨shape, extended address shape found, cell, bound⟩

theorem HeapTyped.cell {address : Address} {index : Nat} {ty : Ty} (typed : HeapTyped G heap)
    (cell : CellTyped heap address index ty) : G.admits ty (heap.cell address index) := by
  obtain ⟨shape, found, cellTy, bound⟩ := cell
  obtain ⟨object, here, rfl⟩ := Heap.exists_of_shape? found
  rw [← object.cells_size] at bound
  have content : object.cells[index]? = some object.cells[index] := Array.getElem?_eq_getElem bound
  rw [Heap.cell, here]
  simp only [content, Option.getD_some]
  exact (typed address object here).cells index ty _ cellTy content

structure Grown (G : Guarantee) (before after : Heap) : Prop where
  typed : HeapTyped G after
  extended : before.Extends after

theorem Grown.refl (typed : HeapTyped G heap) : Grown G heap heap := ⟨typed, .refl heap⟩

theorem Grown.trans {first second third : Heap} (lower : Grown G first second)
    (upper : Grown G second third) : Grown G first third :=
  ⟨upper.typed, lower.extended.trans upper.extended⟩

theorem HeapTyped.push {object : Object} (typed : HeapTyped G heap)
    (new : ObjectTyped G object) : Grown G heap (heap.push object) := by
  refine ⟨?_, heap.extends_push object⟩
  intro address found here
  rw [Array.getElem?_push] at here
  split at here
  · cases here
    exact new
  · exact typed address found here

theorem HeapTyped.modify {target : Address} {change : Object → Object} (typed : HeapTyped G heap)
    (kept : ∀ object, heap[target]? = some object → (change object).shape = object.shape)
    (changed : ∀ object, heap[target]? = some object → ObjectTyped G (change object)) :
    Grown G heap (heap.modify target change) := by
  refine ⟨?_, ?_⟩
  · intro address object here
    rw [Array.getElem?_modify] at here
    split at here
    · rename_i same
      subst same
      obtain ⟨old, before, rfl⟩ := Option.map_eq_some_iff.mp here
      exact changed old before
    · exact typed address object here
  · intro address shape found
    rw [heap.shape?_modify target kept address]
    exact found

theorem HeapTyped.setCell {address : Address} {index : Nat} {ty : Ty} {value : Value}
    (typed : HeapTyped G heap) (cell : CellTyped heap address index ty)
    (admitted : G.admits ty value) : Grown G heap (heap.setCell address index value) := by
  refine typed.modify (fun object _ => object.shape_setCell index value) ?_
  intro object here
  obtain ⟨shape, found, cellTy, bound⟩ := cell
  have sameShape : object.shape = shape := by
    rw [Heap.shape?_of_getElem? here] at found
    exact Option.some.inj found
  refine ⟨?_, ?_⟩
  · intro other otherTy content otherCell stored
    rw [object.shape_setCell] at otherCell
    rw [object.cells_setCell, Array.getElem?_setIfInBounds] at stored
    split at stored
    · rename_i same
      subst same
      rw [sameShape, cellTy] at otherCell
      cases otherCell
      split at stored
      · cases stored
        exact admitted
      · cases stored
    · exact (typed address object here).cells other otherTy content otherCell stored
  · rw [object.shape_setCell]
    exact (typed address object here).complete

theorem newArray_typed (typed : HeapTyped G heap) (kind : Kind) (length : Nat) :
    Grown G heap (heap.newArray kind length).2 ∧
      HasType G (heap.newArray kind length).2 (heap.newArray kind length).1
        (.array (.num kind)) := by
  have new : ObjectTyped G (.array kind (Array.replicate length (Value.zero kind))) := by
    refine ⟨?_, ?_⟩
    · intro index ty value cell content
      cases cell
      simp only [Object.cells, Array.getElem?_replicate] at content
      split at content
      · cases content
        exact G.typed (Value.ty?_zero kind)
      · cases content
    · intro name members impossible
      cases impossible
  refine ⟨typed.push new, Or.inl ⟨heap.size, length, rfl, ?_⟩⟩
  simp only [Heap.newArray, Heap.allocate, Heap.shape?, Array.getElem?_push_size, Option.map_some,
    Object.shape, Array.size_replicate]

theorem zeroMembers_typed (heap : Heap) {members : List (String × Ty)}
    (scalar : ∀ member ∈ members, isCondition member.2 = true) :
    (Heap.zeroMembers members heap).2 = heap ∧
      (Heap.zeroMembers members heap).1 = members.map fun member => Value.initial member.2 := by
  induction members with
  | nil => exact ⟨rfl, rfl⟩
  | cons member rest ih =>
      obtain ⟨name, ty⟩ := member
      obtain ⟨heapEq, valuesEq⟩ :=
        ih fun other listed => scalar other (List.mem_cons_of_mem _ listed)
      have first : Heap.zeroOf ty heap = (Value.initial ty, heap) := by
        have condition : isCondition ty = true := scalar (name, ty) List.mem_cons_self
        rcases isCondition_iff.mp condition with ⟨kind, rfl⟩ | rfl
        · rfl
        · rfl
      rw [Heap.zeroMembers, first]
      exact ⟨heapEq, congrArg (Value.initial ty :: ·) valuesEq⟩

theorem zeroOf_typed {ty : Ty} (typed : HeapTyped G heap) (declarable : ty.isDeclarable = true) :
    Grown G heap (Heap.zeroOf ty heap).2 ∧
      HasType G (Heap.zeroOf ty heap).2 (Heap.zeroOf ty heap).1 ty := by
  cases ty with
  | num kind => exact ⟨.refl typed, G.typed (Value.ty?_zero kind)⟩
  | bool => exact ⟨.refl typed, G.typed rfl⟩
  | str => cases declarable
  | array element => cases declarable
  | func params ret => cases declarable
  | void => exact ⟨.refl typed, trivial⟩
  | struct name members =>
      have scalar := isDeclarable_struct_iff.mp declarable
      obtain ⟨heapEq, valuesEq⟩ := zeroMembers_typed heap scalar
      have result : Heap.zeroOf (.struct name members) heap =
          (.struct heap.size, heap.push (.struct name members
            (members.map fun member => Value.initial member.2).toArray)) := by
        simp only [Heap.zeroOf, Heap.allocate, heapEq, valuesEq]
      have new : ObjectTyped G (.struct name members
          (members.map fun member => Value.initial member.2).toArray) := by
        refine ⟨?_, ?_⟩
        · intro index ty value cell content
          obtain ⟨member, listed, rfl⟩ := Option.map_eq_some_iff.mp cell
          simp only [Object.cells, List.getElem?_toArray, List.getElem?_map, listed,
            Option.map_some] at content
          cases content
          exact G.typed (Value.ty?_initial (scalar member (List.mem_of_getElem? listed)))
        · intro other otherMembers same
          cases same
          simp only [Object.shape, List.size_toArray, List.length_map]
      rw [result]
      refine ⟨typed.push new, Or.inl ⟨heap.size, members.length, rfl, ?_⟩⟩
      simp only [Heap.shape?, Array.getElem?_push_size, Option.map_some, Object.shape,
        List.size_toArray, List.length_map]

theorem copy_typed {value : Value} {ty : Ty} (typed : HeapTyped G heap)
    (object : ty.isObject = true) (hasType : HasType G heap value ty) :
    Grown G heap (heap.copy value).2 ∧ HasType G (heap.copy value).2 (heap.copy value).1 ty := by
  have kept (nothing : G.Lacks value) :
      Grown G heap (heap.copy value).2 ∧ HasType G (heap.copy value).2 (heap.copy value).1 ty := by
    obtain ⟨lacking, rfl⟩ := nothing
    refine ⟨.refl typed, ?_⟩
    cases ty with
    | array element => exact Or.inr ⟨lacking, rfl⟩
    | struct name members => exact Or.inr ⟨lacking, rfl⟩
    | num kind => cases object
    | bool => cases object
    | str => cases object
    | func params ret => cases object
    | void => cases object
  cases ty with
  | array element =>
      rcases hasType with ⟨address, size, rfl, found⟩ | nothing
      case inr => exact kept nothing
      obtain ⟨source, here, shapeEq⟩ := Heap.exists_of_shape? found
      have result : heap.copy (.array address) = (.array heap.size, heap.push source) := by
        simp only [Heap.copy, here, Heap.allocate]
      rw [result]
      refine ⟨typed.push (typed address source here), Or.inl ⟨heap.size, size, rfl, ?_⟩⟩
      simp only [Heap.shape?, Array.getElem?_push_size, Option.map_some, shapeEq]
  | struct name members =>
      rcases hasType with ⟨address, size, rfl, found⟩ | nothing
      case inr => exact kept nothing
      obtain ⟨source, here, shapeEq⟩ := Heap.exists_of_shape? found
      have result : heap.copy (.struct address) = (.struct heap.size, heap.push source) := by
        simp only [Heap.copy, here, Heap.allocate]
      rw [result]
      refine ⟨typed.push (typed address source here), Or.inl ⟨heap.size, size, rfl, ?_⟩⟩
      simp only [Heap.shape?, Array.getElem?_push_size, Option.map_some, shapeEq]
  | num kind => cases object
  | bool => cases object
  | str => cases object
  | func params ret => cases object
  | void => cases object

theorem copyFields_typed {source target : Address} {name : String} {members : List (String × Ty)}
    {sourceSize targetSize : Nat} (typed : HeapTyped G heap)
    (sourceFound : heap.shape? source = some (.struct name members, sourceSize))
    (targetFound : heap.shape? target = some (.struct name members, targetSize)) :
    Grown G heap (heap.copyFields source target) := by
  obtain ⟨from_, here, fromShape⟩ := Heap.exists_of_shape? sourceFound
  have fromTyped := typed source from_ here
  cases from_ with
  | array kind elements => cases fromShape
  | struct otherName otherMembers fields =>
      simp only [Object.shape, Prod.mk.injEq, Ty.struct.injEq] at fromShape
      obtain ⟨⟨rfl, rfl⟩, rfl⟩ := fromShape
      have sourceComplete := fromTyped.complete _ _ rfl
      -- what stands at the target is a struct of the same type
      have there (object : Object) (found : heap[target]? = some object) :
          ∃ old, object = .struct otherName otherMembers old ∧ old.size = otherMembers.length := by
        have shapeEq : object.shape = (.struct otherName otherMembers, targetSize) := by
          rw [Heap.shape?_of_getElem? found] at targetFound
          exact Option.some.inj targetFound
        have complete :=
          (typed target object found).complete otherName otherMembers (by rw [shapeEq])
        cases object with
        | array kind elements => cases shapeEq
        | struct targetName targetMembers old =>
            simp only [Object.shape, Prod.mk.injEq, Ty.struct.injEq] at shapeEq
            obtain ⟨⟨rfl, rfl⟩, rfl⟩ := shapeEq
            exact ⟨old, rfl, complete⟩
      rw [Heap.copyFields, here]
      refine typed.modify ?_ ?_
      · intro object found
        obtain ⟨old, rfl, oldSize⟩ := there object found
        have newSize : fields.size = otherMembers.length := sourceComplete
        simp only [Object.shape, newSize, oldSize]
      · intro object found
        obtain ⟨old, rfl, _⟩ := there object found
        exact fromTyped

end Soundness
end MiniC
