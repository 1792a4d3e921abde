import MiniC.Machine.Eval

/-!
Running a program: the global declarations in order, then the entry function
without arguments.
-/

namespace MiniC.Machine

/-- How a run ends, and the world it leaves behind. -/
inductive Ending where
  /-- The number that the entry function returned, if it returned one. -/
  | finished (exitCode? : Option Int64) (world : World)
  | failed (failure : Failure) (world : World)
  | exhausted

/-- Commands of the global level, in order; none of them can break, continue or return. -/
def execInit (context : Context) (fuel : Nat) : List Command → Step Unit
  | [] => return ()
  | first :: rest => do
      let _ ← exec context fuel first
      execInit context fuel rest

def State.initial (program : Program) (world : World) : State :=
  ⟨.new program.globals [], .empty, world⟩

/-- A run with the given fuel. -/
def runWith (fuel : Nat) (program : Program) (entry : FunctionId) (limit : Nat) (world : World) :
    Ending :=
  let context : Context := ⟨program, limit, 0⟩
  let steps : Step Value := do
    execInit context fuel program.init
    call context fuel entry []
  match steps (.initial program world) with
  | .done value state => .finished value.exitCode? state.world
  | .failed failure state => .failed failure state.world
  | .exhausted => .exhausted

/-- More fuel than any run can spend in practice. -/
def ampleFuel : Nat := Nat.pow 2 62

def run (program : Program) (entry : FunctionId) (limit : Nat) (world : World) : Ending :=
  runWith ampleFuel program entry limit world

end MiniC.Machine
