import MiniC.Builtin.Invoke
import MiniC.Machine.State

/-!
Evaluation of terms and execution of commands.

Every call into a part of the program spends one unit of fuel, so evaluation is
defined by recursion on the fuel; how deep calls may nest is a separate limit,
which is part of the language. Operands are evaluated from left to right, a
place before the value that goes into it.
-/

namespace MiniC.Machine

def maxArrayLength : Int := Nat.pow 2 26

/-- How a command ends. -/
inductive Flow where
  | normal
  | brk
  | cont
  | ret (value : Value)

structure Context where
  program : Program
  /-- How many calls may be active at once. -/
  limit : Nat
  /-- How many calls are active. -/
  depth : Nat

def Context.deeper (context : Context) : Context := { context with depth := context.depth + 1 }

def newArray (slot : Slot) (kind : Kind) (size : Int64) : Step Unit := do
  let length := size.toInt
  if 0 ≤ length ∧ length ≤ maxArrayLength then
    Step.modify fun state =>
      let (value, state) := state.onHeap (·.newArray kind length.toNat)
      state.setReference slot value
  else Step.fail (.invalidArraySize size)

def newStruct (slot : Slot) (name : String) (members : List (String × Ty)) : Step Unit :=
  Step.modify fun state =>
    let (value, state) := state.onHeap (·.newStruct name members)
    state.setReference slot value

def onHeap (operation : Heap → Value × Heap) : Step Value := fun state =>
  let (value, state) := state.onHeap operation
  .done value state

def invoke (builtin : Builtin) (args : List Value) : Step Value := fun state =>
  let ⟨globals, locals, world⟩ := state
  match builtin.invoke args world with
  | ⟨.ok value, world⟩ => .done value ⟨globals, locals, world⟩
  | ⟨.error error, world⟩ => .failed ⟨error, []⟩ ⟨globals, locals, world⟩

/-- The new content of an updated place: the operation, then the conversion to a numeric type. -/
def updated (fn : BinaryFn) (operand : Kind) (ty : Ty) (old rhs : Value) : Value :=
  let combined := fn.apply (old.convert operand) rhs
  match ty.kind? with
  | some kind => combined.convert kind
  | none => combined

def enter (context : Context) (id : FunctionId) : Except RuntimeError (Function × Command) :=
  match context.program.functions[id]? with
  | none => .error (.missingBody s!"#{id}")
  | some function =>
      match function.body? with
      | none => .error (.missingBody function.name)
      | some body =>
          if context.limit ≤ context.depth then .error (.stackOverflow context.limit)
          else .ok (function, body)

/-- What a call makes of the way its body ended. The caller's frame is put back; a body that does
not return yields the zero value of the return type. -/
def leave (function : Function) (caller : Frame) : Outcome Flow → Outcome Value
  | .done (.ret value) state => .done value { state with locals := caller }
  | .done _ state =>
      let (value, state) := state.onHeap (Heap.zeroOf function.ret)
      .done value { state with locals := caller }
  | .failed failure state =>
      .failed (failure.leave function.name) { state with locals := caller }
  | .exhausted => .exhausted

mutual

def eval (context : Context) : Nat → Term → Step Value
  | 0, _ => Step.exhausted
  | fuel + 1, .mk ty _ node =>
      match node with
      | .literal value => return value
      | .load place => do load (← locate context fuel place)
      | .argument index => Step.read fun state => state.locals.argument index
      | .assign place value => do
          let location ← locate context fuel place
          let value ← eval context fuel value
          store location value
      | .update place fn operand rhs yieldsOld => do
          let location ← locate context fuel place
          let old ← load location
          let rhs ← eval context fuel rhs
          let fresh := updated fn operand ty old rhs
          let _ ← store location fresh
          return if yieldsOld then old else fresh
      | .convert kind value => do return (← eval context fuel value).convert kind
      | .truth value => do return .bool (← eval context fuel value).truth
      | .binary fn left right => do
          let left ← eval context fuel left
          let right ← eval context fuel right
          return fn.apply left right
      | .unary fn operand => do return fn.apply (← eval context fuel operand)
      | .logical isAnd left right => do
          let decided := (← eval context fuel left).truth
          if decided == isAnd then return .bool (← eval context fuel right).truth
          else return .bool decided
      | .conditional cond yes no => do
          if (← eval context fuel cond).truth then eval context fuel yes
          else eval context fuel no
      | .comma first second => do
          let _ ← eval context fuel first
          eval context fuel second
      | .call function args => do
          let args ← evalAll context fuel args
          call context fuel function args
      | .builtin builtin args => do
          let args ← evalAll context fuel args
          invoke builtin args
      | .copy value => do
          let value ← eval context fuel value
          onHeap (·.copy value)

def evalAll (context : Context) : Nat → List Term → Step (List Value)
  | 0, _ => Step.exhausted
  | _ + 1, [] => return []
  | fuel + 1, first :: rest => do
      let value ← eval context fuel first
      return value :: (← evalAll context fuel rest)

def locate (context : Context) : Nat → Place → Step Location
  | 0, _ => Step.exhausted
  | fuel + 1, place =>
      match place with
      | .scalar slot => return .scalar slot
      | .whole slot => return .whole slot
      | .element array index => do
          let index ← eval context fuel index
          elementLocation array index.toI64
      | .field owner index => fieldLocation owner index

def call (context : Context) : Nat → FunctionId → List Value → Step Value
  | 0, _, _ => Step.exhausted
  | fuel + 1, id, args => fun state =>
      match enter context id with
      | .error error => .failed ⟨error, []⟩ state
      | .ok (function, body) =>
          let ⟨globals, caller, world⟩ := state
          leave function caller
            (exec context.deeper fuel body ⟨globals, .new function.layout args, world⟩)

def exec (context : Context) : Nat → Command → Step Flow
  | 0, _ => Step.exhausted
  | fuel + 1, command =>
      match command with
      | .expr term => do
          let _ ← eval context fuel term
          return .normal
      | .block body => execAll context fuel body
      | .branch cond yes no => do
          if (← eval context fuel cond).truth then exec context fuel yes
          else
            match no with
            | some no => exec context fuel no
            | none => return .normal
      | .whileLoop cond body step => execWhile context fuel cond body step
      | .doLoop body cond => execDo context fuel body cond
      | .brk => return .brk
      | .cont => return .cont
      | .ret none => return .ret .void
      | .ret (some value) => do return .ret (← eval context fuel value)
      | .newArray slot kind length => do
          let size ← eval context fuel length
          newArray slot kind size.toI64
          return .normal
      | .newStruct slot name members => do
          newStruct slot name members
          return .normal
      | .bind slot value => do
          let value ← eval context fuel value
          Step.modify (State.setReference · slot value)
          return .normal

def execAll (context : Context) : Nat → List Command → Step Flow
  | 0, _ => Step.exhausted
  | _ + 1, [] => return .normal
  | fuel + 1, first :: rest => do
      match ← exec context fuel first with
      | .normal => execAll context fuel rest
      | flow => return flow

def execWhile (context : Context) : Nat → Term → Command → Option Term → Step Flow
  | 0, _, _, _ => Step.exhausted
  | fuel + 1, cond, body, step => do
      if (← eval context fuel cond).truth then
        match ← exec context fuel body with
        | .brk => return .normal
        | .ret value => return .ret value
        | _ =>
            match step with
            | some term =>
                let _ ← eval context fuel term
                execWhile context fuel cond body step
            | none => execWhile context fuel cond body step
      else return .normal

def execDo (context : Context) : Nat → Command → Term → Step Flow
  | 0, _, _ => Step.exhausted
  | fuel + 1, body, cond => do
      match ← exec context fuel body with
      | .brk => return .normal
      | .ret value => return .ret value
      | _ =>
          if (← eval context fuel cond).truth then execDo context fuel body cond
          else return .normal

end

end MiniC.Machine
