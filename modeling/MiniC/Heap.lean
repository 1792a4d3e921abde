import MiniC.Value

/-!
The heap.

Objects are arrays of one numeric kind and structs. An object is named by its
address, addresses are handed out in order and never again, and objects are
never removed; so two references share storage exactly when their addresses are
equal.
-/

namespace MiniC

inductive Object where
  | array (kind : Kind) (elements : Array Value)
  /-- Field values in the order of the members. -/
  | struct (name : String) (members : List (String × Ty)) (fields : Array Value)
deriving Inhabited

abbrev Heap := Array Object

namespace Object

def cells : Object → Array Value
  | array _ elements => elements
  | struct _ _ fields => fields

def setCell (index : Nat) (value : Value) : Object → Object
  | array kind elements => array kind (elements.setIfInBounds index value)
  | struct name members fields => struct name members (fields.setIfInBounds index value)

def field? (name : String) : Object → Option Value
  | struct _ members fields =>
      (Ty.memberAt? name members).bind fun (index, _) => fields[index]?
  | array _ _ => none

end Object

namespace Heap

def empty : Heap := #[]

def allocate (heap : Heap) (object : Object) : Address × Heap :=
  (heap.size, heap.push object)

def newArray (heap : Heap) (kind : Kind) (length : Nat) : Value × Heap :=
  let (address, heap) := heap.allocate (.array kind (Array.replicate length (Value.zero kind)))
  (.array address, heap)

mutual

/-- The value that a slot or member of the type starts with. A struct is allocated. -/
def zeroOf : Ty → Heap → Value × Heap
  | .num kind, heap => (.zero kind, heap)
  | .bool, heap => (.bool false, heap)
  | .str, heap => (.str "", heap)
  | .struct name members, heap =>
      let (fields, heap) := zeroMembers members heap
      let (address, heap) := allocate heap (.struct name members fields.toArray)
      (.struct address, heap)
  | .array _, heap => (.void, heap)
  | .func _ _, heap => (.void, heap)
  | .void, heap => (.void, heap)
termination_by structural ty => ty

def zeroMembers : List (String × Ty) → Heap → List Value × Heap
  | [], heap => ([], heap)
  | (_, ty) :: rest, heap =>
      let (value, heap) := zeroOf ty heap
      let (values, heap) := zeroMembers rest heap
      (value :: values, heap)
termination_by structural members => members

end

def newStruct (heap : Heap) (name : String) (members : List (String × Ty)) : Value × Heap :=
  zeroOf (.struct name members) heap

/-- A copy of an array or struct in storage of its own; any other value is its own copy. -/
def copy (heap : Heap) : Value → Value × Heap
  | .array address =>
      match heap[address]? with
      | some object =>
          let (fresh, heap) := heap.allocate object
          (.array fresh, heap)
      | none => (.array address, heap)
  | .struct address =>
      match heap[address]? with
      | some object =>
          let (fresh, heap) := heap.allocate object
          (.struct fresh, heap)
      | none => (.struct address, heap)
  | other => (other, heap)

def setCell (heap : Heap) (address : Address) (index : Nat) (value : Value) : Heap :=
  heap.modify address (Object.setCell index value)

def cell (heap : Heap) (address : Address) (index : Nat) : Value :=
  match heap[address]? with
  | some object => (object.cells[index]?).getD .void
  | none => .void

def copyFields (heap : Heap) (source target : Address) : Heap :=
  match heap[source]? with
  | some (.struct _ _ fields) =>
      heap.modify target fun
        | .struct name members _ => .struct name members fields
        | other => other
  | _ => heap

end Heap
end MiniC
