import MiniC.Failure
import MiniC.Program
import MiniC.World

/-!
The state of a running program and its steps.

A step ends with a value, with a failure or by running out of fuel; the first
two keep the state. A location is a place whose index has been evaluated and
checked, so that it can be read and written without a second evaluation.
-/

namespace MiniC

structure Frame where
  scalars : Array Value
  /-- References to arrays and structs; absent until the declaration has run. -/
  references : Array (Option Value)
  args : List Value

namespace Frame

def empty : Frame := ⟨#[], #[], []⟩

def new (layout : Layout) (args : List Value) : Frame :=
  ⟨Array.replicate layout.scalars .void, Array.replicate layout.references none, args⟩

def scalar (frame : Frame) (index : Nat) : Value := (frame.scalars[index]?).getD .void

def setScalar (frame : Frame) (index : Nat) (value : Value) : Frame :=
  { frame with scalars := frame.scalars.setIfInBounds index value }

def reference? (frame : Frame) (index : Nat) : Option Value := (frame.references[index]?).join

def setReference (frame : Frame) (index : Nat) (value : Value) : Frame :=
  { frame with references := frame.references.setIfInBounds index (some value) }

def argument (frame : Frame) (index : Nat) : Value := (frame.args[index]?).getD .void

end Frame

namespace Machine

structure State where
  globals : Frame
  /-- The frame of the innermost active function. -/
  locals : Frame
  world : World

namespace State

def frame (state : State) : Region → Frame
  | .global => state.globals
  | .activation => state.locals

def setScalar (state : State) (slot : Slot) (value : Value) : State :=
  match slot.region with
  | .global => { state with globals := state.globals.setScalar slot.index value }
  | .activation => { state with locals := state.locals.setScalar slot.index value }

def setReference (state : State) (slot : Slot) (value : Value) : State :=
  match slot.region with
  | .global => { state with globals := state.globals.setReference slot.index value }
  | .activation => { state with locals := state.locals.setReference slot.index value }

def scalar (state : State) (slot : Slot) : Value := (state.frame slot.region).scalar slot.index

def reference? (state : State) (slot : Slot) : Option Value :=
  (state.frame slot.region).reference? slot.index

def onHeap (state : State) (operation : Heap → Value × Heap) : Value × State :=
  let ⟨globals, locals, ⟨heap, sink, record?⟩⟩ := state
  let (value, heap) := operation heap
  (value, ⟨globals, locals, ⟨heap, sink, record?⟩⟩)

def cellCount (state : State) (address : Address) : Nat :=
  ((state.world.heap[address]?).map fun object => object.cells.size).getD 0

def setCell (state : State) (address : Address) (index : Nat) (value : Value) : State :=
  let ⟨globals, locals, ⟨heap, sink, record?⟩⟩ := state
  ⟨globals, locals, ⟨heap.setCell address index value, sink, record?⟩⟩

def copyFields (state : State) (source target : Address) : State :=
  let ⟨globals, locals, ⟨heap, sink, record?⟩⟩ := state
  ⟨globals, locals, ⟨heap.copyFields source target, sink, record?⟩⟩

end State

inductive Outcome (α : Type) where
  | done (value : α) (state : State)
  | failed (failure : Failure) (state : State)
  | exhausted

/-- A computation over the state. -/
abbrev Step (α : Type) := State → Outcome α

namespace Step

@[inline]
def pure {α : Type} (value : α) : Step α := fun state => .done value state

@[inline]
def bind {α β : Type} (step : Step α) (next : α → Step β) : Step β := fun state =>
  match step state with
  | .done value state => next value state
  | .failed failure state => .failed failure state
  | .exhausted => .exhausted

def fail {α : Type} (error : RuntimeError) : Step α := fun state => .failed ⟨error, []⟩ state

def exhausted {α : Type} : Step α := fun _ => .exhausted

@[inline]
def modify (change : State → State) : Step Unit := fun state => .done () (change state)

@[inline]
def read {α : Type} (view : State → α) : Step α := fun state => .done (view state) state

end Step

instance : Monad Step where
  pure := Step.pure
  bind := Step.bind

inductive Location where
  | scalar (slot : Slot)
  | whole (slot : Slot)
  | element (array : Address) (index : Nat)
  | field (owner : Address) (index : Nat)

/-- The reference in a slot; a failure when its declaration has not run. -/
def reference (slot : Slot) : Step Value := do
  match ← Step.read (State.reference? · slot) with
  | some value => return value
  | none => Step.fail .uninitialized

def elementLocation (slot : Slot) (index : Int64) : Step Location := do
  match ← reference slot with
  | .array address =>
      let length ← Step.read (State.cellCount · address)
      let position := index.toInt
      if 0 ≤ position ∧ position < length then return .element address position.toNat
      else Step.fail (.indexOutOfRange index length)
  | _ => Step.fail .uninitialized

def fieldLocation (slot : Slot) (index : Nat) : Step Location := do
  match ← reference slot with
  | .struct address => return .field address index
  | _ => Step.fail .uninitialized

def load (location : Location) : Step Value :=
  match location with
  | .scalar slot => Step.read (State.scalar · slot)
  | .whole slot => reference slot
  | .element array index => Step.read fun state => state.world.heap.cell array index
  | .field owner index => Step.read fun state => state.world.heap.cell owner index

/-- Writes a value and yields what the location then holds. A struct is copied field by field into
the struct that is there. -/
def store (location : Location) (value : Value) : Step Value := do
  match location with
  | .scalar slot =>
      Step.modify (State.setScalar · slot value)
      return value
  | .whole slot =>
      match value, ← Step.read (State.reference? · slot) with
      | .struct source, some (.struct target) =>
          Step.modify (State.copyFields · source target)
          return .struct target
      | _, _ =>
          Step.modify (State.setReference · slot value)
          return value
  | .element array index =>
      Step.modify (State.setCell · array index value)
      return value
  | .field owner index =>
      Step.modify (State.setCell · owner index value)
      return value

end Machine
end MiniC
