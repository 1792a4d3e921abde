import MiniC.Proofs.Machine.Points
import MiniC.Proofs.Machine.Steps

/-!
The order of the points of a run.

The calls of a point are made one after the other: each starts in the state in
which the one before it has ended, and the point ends where its last call has
ended, up to one change of its own. What the changes are is said once, by
`Point.Changes`, for every point but the calls of functions.
-/

namespace MiniC.Machine

namespace Point

def fuel : Point → Nat
  | eval _ fuel _ _ => fuel
  | evalAll _ fuel _ _ => fuel
  | locate _ fuel _ _ => fuel
  | call _ fuel _ _ _ => fuel
  | exec _ fuel _ _ => fuel
  | execAll _ fuel _ _ => fuel
  | execWhile _ fuel _ _ _ _ => fuel
  | execDo _ fuel _ _ _ => fuel

/-- The state in which a point starts. -/
def state : Point → State
  | eval _ _ _ state => state
  | evalAll _ _ _ state => state
  | locate _ _ _ state => state
  | call _ _ _ _ state => state
  | exec _ _ _ state => state
  | execAll _ _ _ state => state
  | execWhile _ _ _ _ _ state => state
  | execDo _ _ _ _ state => state

def last? : Point → Option State
  | eval context fuel term state => (Machine.eval context fuel term state).last?
  | evalAll context fuel terms state => (Machine.evalAll context fuel terms state).last?
  | locate context fuel place state => (Machine.locate context fuel place state).last?
  | call context fuel id args state => (Machine.call context fuel id args state).last?
  | exec context fuel command state => (Machine.exec context fuel command state).last?
  | execAll context fuel commands state => (Machine.execAll context fuel commands state).last?
  | execWhile context fuel cond body step state =>
      (Machine.execWhile context fuel cond body step state).last?
  | execDo context fuel body cond state => (Machine.execDo context fuel body cond state).last?

def isCall : Point → Bool
  | call _ _ _ _ _ => true
  | _ => false

end Point

/-- A call of a builtin function: its arguments, and the heap that they refer to. -/
structure Invocation where
  builtin : Builtin
  args : List Value
  heap : Heap

namespace Point

/-- The builtin that a point calls itself, once its arguments have been evaluated. -/
def invocation? : Point → Option Invocation
  | eval context (fuel + 1) (.mk _ _ (.builtin builtin args)) state =>
      match Machine.evalAll context fuel args state with
      | .done values after => some ⟨builtin, values, after.world.heap⟩
      | _ => none
  | _ => none

/-- What a point itself does to the state behind its calls. -/
inductive Changes : Point → State → State → Prop where
  | none {point : Point} (quiet : point.invocation? = none) (state : State) :
      Changes point state state
  | assign {context : Context} {fuel : Nat} {ty : Ty} {span : Span} {place : Place} {value : Term}
      {state between before last : State} {location : Location} {result written : Value} :
      Machine.locate context fuel place state = .done location between →
      Machine.eval context fuel value between = .done result before →
      store location result before = .done written last →
      Changes (eval context (fuel + 1) (.mk ty span (.assign place value)) state) before last
  | update {context : Context} {fuel : Nat} {ty : Ty} {span : Span} {place : Place}
      {fn : BinaryFn} {operand : Kind} {rhs : Term} {yieldsOld : Bool}
      {state between before last : State} {location : Location} {old result written : Value} :
      Machine.locate context fuel place state = .done location between →
      load location between = .done old between →
      Machine.eval context fuel rhs between = .done result before →
      store location (updated fn operand ty old result) before = .done written last →
      Changes (eval context (fuel + 1) (.mk ty span (.update place fn operand rhs yieldsOld)) state)
        before last
  | invoke {context : Context} {fuel : Nat} {ty : Ty} {span : Span} {builtin : Builtin}
      {args : List Term} {values : List Value} {state before last : State} :
      Machine.evalAll context fuel args state = .done values before →
      (Machine.invoke builtin values before).last? = some last →
      Changes (eval context (fuel + 1) (.mk ty span (.builtin builtin args)) state) before last
  | copy {context : Context} {fuel : Nat} {ty : Ty} {span : Span} {value : Term} {result : Value}
      {state before : State} :
      Machine.eval context fuel value state = .done result before →
      Changes (eval context (fuel + 1) (.mk ty span (.copy value)) state) before
        (before.onHeap (·.copy result)).2
  | newArray {context : Context} {fuel count : Nat} {slot : Slot} {kind : Kind} {length : Term}
      {size : Value} {state before : State} :
      Machine.eval context fuel length state = .done size before →
      Machine.newArray slot kind size.toI64 before =
        .done () (before.allocated slot (·.newArray kind count)) →
      Changes (exec context (fuel + 1) (.newArray slot kind length) state) before
        (before.allocated slot (·.newArray kind count))
  | newStruct {context : Context} {fuel : Nat} {slot : Slot} {name : String}
      {members : List (String × Ty)} {state : State} :
      Changes (exec context (fuel + 1) (.newStruct slot name members) state) state
        (state.allocated slot (·.newStruct name members))
  | bind {context : Context} {fuel : Nat} {slot : Slot} {value : Term} {result : Value}
      {state before : State} :
      Machine.eval context fuel value state = .done result before →
      Changes (exec context (fuel + 1) (.bind slot value) state) before
        (before.setReference slot result)

end Point

/-! ### Calls in order -/

/-- Calls that are made one after the other, each in the state in which the one before it has
ended. -/
inductive Threads : State → List Point → State → Prop where
  | nil (state : State) : Threads state [] state
  | cons {point : Point} {rest : List Point} {middle last : State} :
      point.last? = some middle → Threads middle rest last →
      Threads point.state (point :: rest) last

/-- What every one of the calls keeps is kept by all of them together. -/
theorem Threads.kept {Holds : State → Prop} {points : List Point} {state last : State}
    (threads : Threads state points last)
    (each : ∀ point ∈ points, ∀ last, point.last? = some last → Holds point.state → Holds last)
    (holds : Holds state) : Holds last := by
  induction threads with
  | nil state => exact holds
  | @cons point rest middle last ended _ ih =>
      have first : Holds middle := each point List.mem_cons_self middle ended holds
      exact ih (fun other listed => each other (List.mem_cons_of_mem _ listed)) first

/-- Calls made from a state, and the state behind them. -/
structure Runs (bound : Nat) (state : State) (points : List Point) (last? : Option State)
    (Own : State → State → Prop) : Prop where
  smaller : ∀ point ∈ points, point.fuel < bound
  starts : ∀ earlier point later, points = earlier ++ point :: later →
    Threads state earlier point.state
  ends : ∀ last, last? = some last → ∃ before, Threads state points before ∧ Own before last

namespace Runs

variable {bound : Nat} {state : State} {Own : State → State → Prop} {α β : Type}

theorem still {last? : Option State} (own : ∀ last, last? = some last → Own state last) :
    Runs bound state [] last? Own where
  smaller := by
    intro point impossible
    cases impossible
  starts := by
    intro earlier point later impossible
    cases earlier <;> cases impossible
  ends := fun last ended => ⟨state, .nil state, own last ended⟩

theorem rest (own : ∀ state, Own state state) : Runs bound state [] (some state) Own := by
  refine still ?_
  intro last ended
  cases ended
  exact own state

theorem one {last? : Option State} (point : Point) (smaller : point.fuel < bound)
    (start : point.state = state)
    (own : ∀ last, last? = some last → ∃ middle, point.last? = some middle ∧ Own middle last) :
    Runs bound state [point] last? Own where
  smaller := by
    intro other listed
    rw [List.mem_singleton.mp listed]
    exact smaller
  starts := by
    intro earlier other later split
    cases earlier with
    | nil =>
        cases split
        rw [start]
        exact .nil state
    | cons head tail => cases tail <;> cases split
  ends := by
    intro last ended
    obtain ⟨middle, pointEnded, owned⟩ := own last ended
    rw [← start]
    exact ⟨middle, .cons pointEnded (.nil middle), owned⟩

theorem cons {last? : Option State} {points : List Point} {middle : State} (point : Point)
    (smaller : point.fuel < bound) (start : point.state = state)
    (ended : point.last? = some middle) (rest : Runs bound middle points last? Own) :
    Runs bound state (point :: points) last? Own where
  smaller := by
    intro other listed
    rcases List.mem_cons.mp listed with rfl | behind
    · exact smaller
    · exact rest.smaller other behind
  starts := by
    intro earlier other later split
    rw [← start]
    cases earlier with
    | nil =>
        cases split
        exact .nil _
    | cons head tail =>
        obtain ⟨rfl, rfl⟩ := List.cons.inj split
        exact .cons ended (rest.starts tail other later rfl)
  ends := by
    intro last lastEnded
    obtain ⟨before, threads, owned⟩ := rest.ends last lastEnded
    rw [← start]
    exact ⟨before, .cons ended threads, owned⟩

/-- A call, and others behind it if it ends well. -/
theorem bind {step : Step α} {next : α → Step β} {behind : α → State → List Point} (point : Point)
    (smaller : point.fuel < bound) (start : point.state = state)
    (same : point.last? = (step state).last?) (still : ∀ state, Own state state)
    (rest : ∀ value middle, step state = .done value middle →
      Runs bound middle (behind value middle) (next value middle).last? Own) :
    Runs bound state ([point] ++ after (step state) behind) ((step >>= next) state).last? Own := by
  rw [last?_bind]
  cases outcome : step state with
  | done value middle =>
      rw [outcome] at same
      exact cons point smaller start same (rest value middle outcome)
  | failed failure middle =>
      rw [outcome] at same
      refine one point smaller start ?_
      intro last ended
      cases ended
      exact ⟨middle, same, still middle⟩
  | exhausted =>
      refine one point smaller start ?_
      intro last impossible
      cases impossible

/-- A call, and a change behind it if it ends well. -/
theorem finish {step : Step α} {next : α → Step β} (point : Point)
    (smaller : point.fuel < bound) (start : point.state = state)
    (same : point.last? = (step state).last?)
    (refused : ∀ failure middle, step state = .failed failure middle → Own middle middle)
    (own : ∀ value middle last, step state = .done value middle →
      (next value middle).last? = some last → Own middle last) :
    Runs bound state [point] ((step >>= next) state).last? Own := by
  refine one point smaller start ?_
  intro last ended
  rw [last?_bind] at ended
  cases outcome : step state with
  | done value middle =>
      rw [outcome] at same ended
      exact ⟨middle, same, own value middle last outcome ended⟩
  | failed failure middle =>
      rw [outcome] at same ended
      cases ended
      exact ⟨_, same, refused failure _ outcome⟩
  | exhausted =>
      rw [outcome] at ended
      cases ended

theorem pure_behind {step : Step α} {result : α → β} (point : Point)
    (smaller : point.fuel < bound) (start : point.state = state)
    (same : point.last? = (step state).last?) (still : ∀ state, Own state state) :
    Runs bound state [point] ((step >>= fun value => pure (result value)) state).last? Own := by
  refine finish point smaller start same (fun _ middle _ => still middle) ?_
  intro value middle last _ ended
  cases ended
  exact still middle

/-- A step that makes no call and leaves the state as it is, and what stands behind it. -/
theorem read {first : Step α} {next : α → Step β} {behind : α → State → List Point}
    (kept : ∀ last, (first state).last? = some last → last = state)
    (still : ∀ state, Own state state)
    (rest : ∀ value, first state = .done value state →
      Runs bound state (behind value state) (next value state).last? Own) :
    Runs bound state (after (first state) behind) ((first >>= next) state).last? Own := by
  rw [last?_bind]
  cases outcome : first state with
  | done value middle =>
      rw [outcome] at kept
      obtain rfl : middle = state := kept middle rfl
      exact rest value outcome
  | failed failure middle =>
      rw [outcome] at kept
      obtain rfl : middle = state := kept middle rfl
      refine Runs.still ?_
      intro last ended
      cases ended
      exact still _
  | exhausted =>
      refine Runs.still ?_
      intro last impossible
      cases impossible

theorem whole {last? : Option State} (point : Point) (smaller : point.fuel < bound)
    (start : point.state = state) (same : point.last? = last?) (still : ∀ state, Own state state) :
    Runs bound state [point] last? Own := by
  refine one point smaller start ?_
  intro last ended
  exact ⟨last, same.trans ended, still last⟩

end Runs

/-! ### What points do -/

namespace Point

variable {context : Context} {fuel : Nat} {state : State}

private theorem node_runs {ty : Ty} {span : Span} (node : Node) :
    Runs (fuel + 1) state (nodeCalls context fuel node state)
      (Machine.eval context (fuel + 1) (.mk ty span node) state).last?
      (Changes (eval context (fuel + 1) (.mk ty span node) state)) := by
  have still (notBuiltin : ∀ builtin args, node ≠ .builtin builtin args) (other : State) :
      Changes (eval context (fuel + 1) (.mk ty span node) state) other other := by
    refine .none ?_ other
    cases node with
    | builtin builtin args => exact absurd rfl (notBuiltin builtin args)
    | _ => rfl
  have less : fuel < fuel + 1 := Nat.lt_succ_self fuel
  cases node with
  | literal value => exact .rest (still nofun)
  | argument index => exact .rest (still nofun)
  | load place =>
      rw [Machine.eval, nodeCalls]
      refine .finish _ less rfl rfl (fun _ middle _ => still nofun middle) ?_
      intro location middle last _ ended
      rw [load_last? ended]
      exact still nofun middle
  | assign place value =>
      rw [Machine.eval, nodeCalls]
      refine .bind _ less rfl rfl (still nofun) ?_
      intro location between found
      refine .finish _ less rfl rfl (fun _ middle _ => still nofun middle) ?_
      intro result before last evaluated ended
      obtain ⟨written, stored⟩ := store_last? ended
      exact .assign found evaluated stored
  | update place fn operand rhs yieldsOld =>
      rw [Machine.eval, nodeCalls]
      refine .bind _ less rfl rfl (still nofun) ?_
      intro location between found
      refine .read (fun _ => load_last?) (still nofun) ?_
      intro old loaded
      refine .finish _ less rfl rfl (fun _ middle _ => still nofun middle) ?_
      intro result before last evaluated ended
      obtain ⟨written, after, stored⟩ :=
        store_eq_done location (updated fn operand ty old result) before
      rw [last?_bind, stored] at ended
      cases ended
      exact .update found loaded evaluated stored
  | convert kind value =>
      rw [Machine.eval, nodeCalls]
      exact .pure_behind _ less rfl rfl (still nofun)
  | truth value =>
      rw [Machine.eval, nodeCalls]
      exact .pure_behind _ less rfl rfl (still nofun)
  | unary fn operand =>
      rw [Machine.eval, nodeCalls]
      exact .pure_behind _ less rfl rfl (still nofun)
  | copy value =>
      rw [Machine.eval, nodeCalls]
      refine .finish _ less rfl rfl (fun _ middle _ => still nofun middle) ?_
      intro result before last evaluated ended
      cases ended
      exact .copy evaluated
  | binary fn left right =>
      rw [Machine.eval, nodeCalls]
      refine .bind _ less rfl rfl (still nofun) ?_
      intro first between _
      exact .pure_behind _ less rfl rfl (still nofun)
  | comma first second =>
      rw [Machine.eval, nodeCalls]
      refine .bind _ less rfl rfl (still nofun) ?_
      intro _ between _
      exact .whole _ less rfl rfl (still nofun)
  | logical isAnd left right =>
      rw [Machine.eval, nodeCalls]
      refine .bind _ less rfl rfl (still nofun) ?_
      intro first between _
      by_cases undecided : (first.truth == isAnd) = true
      · simp only [if_pos undecided]
        exact .pure_behind _ less rfl rfl (still nofun)
      · simp only [if_neg undecided]
        exact .rest (still nofun)
  | conditional cond yes no =>
      rw [Machine.eval, nodeCalls]
      refine .bind _ less rfl rfl (still nofun) ?_
      intro test between _
      split
      · exact .whole _ less rfl rfl (still nofun)
      · exact .whole _ less rfl rfl (still nofun)
  | call id args =>
      rw [Machine.eval, nodeCalls]
      refine .bind _ less rfl rfl (still nofun) ?_
      intro values between _
      exact .whole _ less rfl rfl (still nofun)
  | builtin fn args =>
      rw [Machine.eval, nodeCalls]
      refine .finish _ less rfl rfl ?_ ?_
      · intro failure middle failed
        refine .none ?_ middle
        rw [invocation?, failed]
      · intro values before last evaluated ended
        exact .invoke evaluated ended

private theorem command_runs (command : Command) :
    Runs (fuel + 1) state (commandCalls context fuel command state)
      (Machine.exec context (fuel + 1) command state).last?
      (Changes (exec context (fuel + 1) command state)) := by
  have still : ∀ other, Changes (exec context (fuel + 1) command state) other other :=
    fun other => .none rfl other
  have less : fuel < fuel + 1 := Nat.lt_succ_self fuel
  cases command with
  | expr term =>
      rw [Machine.exec, commandCalls]
      exact .pure_behind _ less rfl rfl still
  | block body =>
      rw [Machine.exec, commandCalls]
      exact .whole _ less rfl rfl still
  | branch cond yes no =>
      cases no with
      | some no =>
          rw [Machine.exec, commandCalls]
          refine .bind _ less rfl rfl still ?_
          intro test between _
          split
          · exact .whole _ less rfl rfl still
          · exact .whole _ less rfl rfl still
      | none =>
          rw [Machine.exec, commandCalls]
          refine .bind _ less rfl rfl still ?_
          intro test between _
          split
          · exact .whole _ less rfl rfl still
          · exact .rest still
  | whileLoop cond body step =>
      rw [Machine.exec, commandCalls]
      exact .whole _ less rfl rfl still
  | doLoop body cond =>
      rw [Machine.exec, commandCalls]
      exact .whole _ less rfl rfl still
  | brk => exact .rest still
  | cont => exact .rest still
  | ret value =>
      cases value with
      | none => exact .rest still
      | some term =>
          rw [Machine.exec, commandCalls]
          exact .pure_behind _ less rfl rfl still
  | newArray slot kind length =>
      rw [Machine.exec, commandCalls]
      refine .finish _ less rfl rfl (fun _ middle _ => still middle) ?_
      intro size before last evaluated ended
      rw [last?_bind] at ended
      rcases newArray_cases slot kind size.toI64 before with ⟨count, created⟩ | ⟨failure, refused⟩
      · rw [created] at ended
        cases ended
        exact .newArray evaluated created
      · rw [refused] at ended
        cases ended
        exact still _
  | newStruct slot name members =>
      rw [Machine.exec, commandCalls]
      refine .still ?_
      intro last ended
      cases ended
      exact .newStruct
  | bind slot value =>
      rw [Machine.exec, commandCalls]
      refine .finish _ less rfl rfl (fun _ middle _ => still middle) ?_
      intro result before last evaluated ended
      cases ended
      exact .bind evaluated

private theorem again_runs {Own : State → State → Prop} (still : ∀ other, Own other other)
    (cond : Term)
    (body : Command) (step : Option Term) :
    Runs (fuel + 1) state (againCalls context fuel cond body step state)
      ((match step with
        | some term => (do
            let _ ← Machine.eval context fuel term
            Machine.execWhile context fuel cond body step : Step Flow)
        | none => Machine.execWhile context fuel cond body step) state).last? Own := by
  have less : fuel < fuel + 1 := Nat.lt_succ_self fuel
  cases step with
  | none => exact .whole _ less rfl rfl still
  | some term =>
      refine .bind _ less rfl rfl still ?_
      intro _ between _
      exact .whole _ less rfl rfl still

private theorem while_runs (cond : Term) (body : Command) (step : Option Term) :
    Runs (fuel + 1) state (execWhile context (fuel + 1) cond body step state).calls
      (Machine.execWhile context (fuel + 1) cond body step state).last?
      (Changes (execWhile context (fuel + 1) cond body step state)) := by
  have still : ∀ other, Changes (execWhile context (fuel + 1) cond body step state) other other :=
    fun other => .none rfl other
  have less : fuel < fuel + 1 := Nat.lt_succ_self fuel
  unfold Machine.execWhile
  rw [calls]
  refine .bind _ less rfl rfl still ?_
  intro test between _
  split
  · refine .bind _ less rfl rfl still ?_
    intro flow behind _
    cases flow with
    | normal => exact again_runs still cond body step
    | cont => exact again_runs still cond body step
    | brk => exact .rest still
    | ret value => exact .rest still
  · exact .rest still

private theorem do_runs (body : Command) (cond : Term) :
    Runs (fuel + 1) state (execDo context (fuel + 1) body cond state).calls
      (Machine.execDo context (fuel + 1) body cond state).last?
      (Changes (execDo context (fuel + 1) body cond state)) := by
  have still : ∀ other, Changes (execDo context (fuel + 1) body cond state) other other :=
    fun other => .none rfl other
  have less : fuel < fuel + 1 := Nat.lt_succ_self fuel
  have again (between : State) : Runs (fuel + 1) between
      ([eval context fuel cond between] ++ after (Machine.eval context fuel cond between)
        fun value state => if value.truth then [execDo context fuel body cond state] else [])
      ((do
        if (← Machine.eval context fuel cond).truth then Machine.execDo context fuel body cond
        else return .normal : Step Flow) between).last?
      (Changes (execDo context (fuel + 1) body cond state)) := by
    refine .bind _ less rfl rfl still ?_
    intro test behind _
    split
    · exact .whole _ less rfl rfl still
    · exact .rest still
  rw [Machine.execDo, calls]
  refine .bind _ less rfl rfl still ?_
  intro flow between _
  cases flow with
  | normal => exact again between
  | cont => exact again between
  | brk => exact .rest still
  | ret value => exact .rest still

theorem runs {point : Point} (other : point.isCall = false) :
    Runs point.fuel point.state point.calls point.last? point.Changes := by
  have still (quiet : point.invocation? = none) (state : State) : Changes point state state :=
    .none quiet state
  cases point with
  | call context fuel id args state => cases other
  | eval context fuel term state =>
      cases fuel with
      | zero => exact .still nofun
      | succ fuel =>
          obtain ⟨ty, span, node⟩ := term
          exact node_runs node
  | evalAll context fuel terms state =>
      cases fuel with
      | zero => exact .still nofun
      | succ fuel =>
          have less : fuel < fuel + 1 := Nat.lt_succ_self fuel
          cases terms with
          | nil => exact .rest (still rfl)
          | cons first rest =>
              rw [last?, Machine.evalAll, calls]
              refine .bind _ less rfl rfl (still rfl) ?_
              intro value between _
              exact .pure_behind _ less rfl rfl (still rfl)
  | locate context fuel place state =>
      cases fuel with
      | zero => exact .still nofun
      | succ fuel =>
          cases place with
          | scalar slot => exact .rest (still rfl)
          | whole slot => exact .rest (still rfl)
          | element array index =>
              rw [last?, Machine.locate, calls]
              refine .finish _ (Nat.lt_succ_self fuel) rfl rfl
                (fun _ middle _ => still rfl middle) ?_
              intro position middle last _ ended
              rw [elementLocation_last? ended]
              exact still rfl middle
          | field owner index =>
              refine .still ?_
              intro last ended
              rw [fieldLocation_last? ended]
              exact still rfl state
  | exec context fuel command state =>
      cases fuel with
      | zero => exact .still nofun
      | succ fuel => exact command_runs command
  | execAll context fuel commands state =>
      cases fuel with
      | zero => exact .still nofun
      | succ fuel =>
          have less : fuel < fuel + 1 := Nat.lt_succ_self fuel
          cases commands with
          | nil => exact .rest (still rfl)
          | cons first rest =>
              rw [last?, Machine.execAll, calls]
              refine .bind _ less rfl rfl (still rfl) ?_
              intro flow between _
              cases flow with
              | normal => exact .whole _ less rfl rfl (still rfl)
              | brk => exact .rest (still rfl)
              | cont => exact .rest (still rfl)
              | ret value => exact .rest (still rfl)
  | execWhile context fuel cond body step state =>
      cases fuel with
      | zero => exact .still nofun
      | succ fuel => exact while_runs cond body step
  | execDo context fuel body cond state =>
      cases fuel with
      | zero => exact .still nofun
      | succ fuel => exact do_runs body cond

end Point

end MiniC.Machine
