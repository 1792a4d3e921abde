import MiniC.Machine.Run
import MiniC.Proofs.Typing.Judgement

/-!
The points of a run.

A point is one call of the evaluator with everything that it is given. The points
that a point calls are computed from the outcomes of the calls before them, in
the order of evaluation; a run visits what its first calls reach in this way.
-/

namespace MiniC.Machine

/-- One call of the evaluator. -/
inductive Point where
  | eval (context : Context) (fuel : Nat) (term : Term) (state : State)
  | evalAll (context : Context) (fuel : Nat) (terms : List Term) (state : State)
  | locate (context : Context) (fuel : Nat) (place : Place) (state : State)
  | call (context : Context) (fuel : Nat) (id : FunctionId) (args : List Value) (state : State)
  | exec (context : Context) (fuel : Nat) (command : Command) (state : State)
  | execAll (context : Context) (fuel : Nat) (commands : List Command) (state : State)
  | execWhile (context : Context) (fuel : Nat) (cond : Term) (body : Command) (step : Option Term)
      (state : State)
  | execDo (context : Context) (fuel : Nat) (body : Command) (cond : Term) (state : State)

/-- What is called behind a step that has ended well. -/
def after {α : Type} (outcome : Outcome α) (next : α → State → List Point) : List Point :=
  match outcome with
  | .done value state => next value state
  | _ => []

namespace Point

def nodeCalls (context : Context) (fuel : Nat) (node : Node) (state : State) : List Point :=
  match node with
  | .literal _ | .argument _ => []
  | .load place => [locate context fuel place state]
  | .assign place value =>
      [locate context fuel place state] ++
        after (Machine.locate context fuel place state) fun _ state =>
          [eval context fuel value state]
  | .update place _ _ rhs _ =>
      [locate context fuel place state] ++
        after (Machine.locate context fuel place state) fun location state =>
          after (load location state) fun _ state => [eval context fuel rhs state]
  | .convert _ value | .truth value | .unary _ value | .copy value =>
      [eval context fuel value state]
  | .binary _ left right | .comma left right =>
      [eval context fuel left state] ++
        after (Machine.eval context fuel left state) fun _ state =>
          [eval context fuel right state]
  | .logical isAnd left right =>
      [eval context fuel left state] ++
        after (Machine.eval context fuel left state) fun value state =>
          if value.truth == isAnd then [eval context fuel right state] else []
  | .conditional cond yes no =>
      [eval context fuel cond state] ++
        after (Machine.eval context fuel cond state) fun value state =>
          if value.truth then [eval context fuel yes state] else [eval context fuel no state]
  | .call id args =>
      [evalAll context fuel args state] ++
        after (Machine.evalAll context fuel args state) fun values state =>
          [call context fuel id values state]
  | .builtin _ args => [evalAll context fuel args state]

def commandCalls (context : Context) (fuel : Nat) (command : Command) (state : State) :
    List Point :=
  match command with
  | .expr term | .ret (some term) | .newArray _ _ term | .bind _ term =>
      [eval context fuel term state]
  | .block body => [execAll context fuel body state]
  | .branch cond yes no =>
      [eval context fuel cond state] ++
        after (Machine.eval context fuel cond state) fun value state =>
          if value.truth then [exec context fuel yes state]
          else
            match no with
            | some no => [exec context fuel no state]
            | none => []
  | .whileLoop cond body step => [execWhile context fuel cond body step state]
  | .doLoop body cond => [execDo context fuel body cond state]
  | .brk | .cont | .ret none | .newStruct _ _ _ => []

def againCalls (context : Context) (fuel : Nat) (cond : Term) (body : Command)
    (step : Option Term) (state : State) : List Point :=
  match step with
  | some term =>
      [eval context fuel term state] ++
        after (Machine.eval context fuel term state) fun _ state =>
          [execWhile context fuel cond body step state]
  | none => [execWhile context fuel cond body step state]

/-- The points that a point calls, in order. Without fuel there are none. -/
def calls : Point → List Point
  | eval context (fuel + 1) (.mk _ _ node) state => nodeCalls context fuel node state
  | evalAll context (fuel + 1) (first :: rest) state =>
      [eval context fuel first state] ++
        after (Machine.eval context fuel first state) fun _ state =>
          [evalAll context fuel rest state]
  | locate context (fuel + 1) (.element _ index) state => [eval context fuel index state]
  | call context (fuel + 1) id args state =>
      match enter context id with
      | .error _ => []
      | .ok (function, body) =>
          [exec context.deeper fuel body
            ⟨state.globals, .new function.layout args, state.world⟩]
  | exec context (fuel + 1) command state => commandCalls context fuel command state
  | execAll context (fuel + 1) (first :: rest) state =>
      [exec context fuel first state] ++
        after (Machine.exec context fuel first state) fun flow state =>
          match flow with
          | .normal => [execAll context fuel rest state]
          | _ => []
  | execWhile context (fuel + 1) cond body step state =>
      [eval context fuel cond state] ++
        after (Machine.eval context fuel cond state) fun value state =>
          if value.truth then
            [exec context fuel body state] ++
              after (Machine.exec context fuel body state) fun flow state =>
                match flow with
                | .brk | .ret _ => []
                | _ => againCalls context fuel cond body step state
          else []
  | execDo context (fuel + 1) body cond state =>
      [exec context fuel body state] ++
        after (Machine.exec context fuel body state) fun flow state =>
          match flow with
          | .brk | .ret _ => []
          | _ =>
              [eval context fuel cond state] ++
                after (Machine.eval context fuel cond state) fun value state =>
                  if value.truth then [execDo context fuel body cond state] else []
  | _ => []

/-- A point that the first one is or, over any number of calls, leads to. -/
inductive Within : Point → Point → Prop where
  | here (point : Point) : Within point point
  | deeper {first second third : Point} :
      second ∈ first.calls → Within second third → Within first third

def follow (point : Point) : List Nat → Option Point
  | [] => some point
  | index :: rest => point.calls[index]?.bind fun next => next.follow rest

theorem within_of_follow {point reached : Point} {path : List Nat}
    (found : point.follow path = some reached) : point.Within reached := by
  induction path generalizing point with
  | nil =>
      cases found
      exact .here _
  | cons index rest ih =>
      obtain ⟨next, listed, followed⟩ := Option.bind_eq_some_iff.mp found
      exact .deeper (List.mem_of_getElem? listed) (ih followed)

/-- A global scalar that is read while it is still empty. The slot is read by a load, and by an
update before its operand. -/
def ReadsEmpty : Point → Prop
  | eval _ (_ + 2) (.mk _ _ (.load (.scalar slot))) state =>
      slot.region = .global ∧ state.scalar slot = .void
  | eval _ (_ + 2) (.mk _ _ (.update (.scalar slot) _ _ _ _)) state =>
      slot.region = .global ∧ state.scalar slot = .void
  | _ => False

/-- An update whose type a cast has taken away, and which comes to write to a place that holds a
value of another kind than the one it computes in. -/
def MixesKinds : Point → Prop
  | eval context (fuel + 1) (.mk .void _ (.update place _ operand rhs _)) state =>
      ∃ location between old middle value last,
        Machine.locate context fuel place state = .done location between ∧
        load location between = .done old middle ∧
        Machine.eval context fuel rhs middle = .done value last ∧ old.ty? ≠ some (.num operand)
  | _ => False

end Point

theorem enter_eq_ok {context : Context} {id : FunctionId} {function : Function}
    {body : Command} (entered : enter context id = .ok (function, body)) :
    context.program.functions[id]? = some function ∧ function.body? = some body := by
  unfold enter at entered
  split at entered
  · cases entered
  · rename_i found
    split at entered
    · cases entered
    · rename_i defined
      split at entered
      · cases entered
      · cases entered
        exact ⟨found, defined⟩

/-! ### Runs -/

def initPoints (context : Context) (fuel : Nat) : List Command → State → List Point
  | [], _ => []
  | first :: rest, state =>
      [.exec context fuel first state] ++
        after (exec context fuel first state) fun _ state => initPoints context fuel rest state

/-- The calls that a run makes itself: the commands of the initialisation, then the entry. -/
def runPoints (fuel : Nat) (program : Program) (entry : FunctionId) (limit : Nat) (world : World) :
    List Point :=
  let context : Context := ⟨program, limit, 0⟩
  initPoints context fuel program.init (.initial program world) ++
    after (execInit context fuel program.init (.initial program world)) fun _ state =>
      [.call context fuel entry [] state]

/-- A run comes to a point. -/
def Visits (fuel : Nat) (program : Program) (entry : FunctionId) (limit : Nat) (world : World)
    (point : Point) : Prop :=
  ∃ first ∈ runPoints fuel program entry limit world, first.Within point

/-- What holds at the calls that a run makes itself, and behind every call where it holds, holds at
every point of the run. -/
theorem Visits.induction {fuel : Nat} {program : Program} {entry : FunctionId} {limit : Nat}
    {world : World} {Holds : Point → Prop}
    (start : ∀ point ∈ runPoints fuel program entry limit world, Holds point)
    (step : ∀ point, Holds point → ∀ next ∈ point.calls, Holds next) {point : Point}
    (visited : Visits fuel program entry limit world point) : Holds point := by
  obtain ⟨first, listed, within⟩ := visited
  have holds := start first listed
  clear listed
  induction within with
  | here point => exact holds
  | deeper called _ ih => exact ih (step _ holds _ called)

end MiniC.Machine
