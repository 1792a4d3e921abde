import MiniC.Proofs.Machine.Courses

/-!
How points end.

A point ends as the last of its calls does, if that one has not ended well. If
all its calls have ended well, so does the point, unless it raises an error
itself. Where an error can be raised is said once, by `Point.Raises`.
-/

namespace MiniC.Machine

namespace Point

/-- The point raises an error itself, in the given state: all that it calls has ended well. -/
inductive Raises : Point → RuntimeError → State → Prop where
  | load {context : Context} {fuel : Nat} {ty : Ty} {span : Span} {place : Place}
      {state between last : State} {location : Location} {error : RuntimeError} :
      Machine.locate context fuel place state = .done location between →
      Machine.load location between = .failed ⟨error, []⟩ last →
      Raises (eval context (fuel + 1) (.mk ty span (.load place)) state) error last
  | update {context : Context} {fuel : Nat} {ty : Ty} {span : Span} {place : Place} {fn : BinaryFn}
      {operand : Kind} {rhs : Term} {yieldsOld : Bool} {state between last : State}
      {location : Location} {error : RuntimeError} :
      Machine.locate context fuel place state = .done location between →
      Machine.load location between = .failed ⟨error, []⟩ last →
      Raises (eval context (fuel + 1) (.mk ty span (.update place fn operand rhs yieldsOld)) state)
        error last
  | builtin {context : Context} {fuel : Nat} {ty : Ty} {span : Span} {builtin : Builtin}
      {args : List Term} {values : List Value} {state between last : State}
      {error : RuntimeError} :
      Machine.evalAll context fuel args state = .done values between →
      invoke builtin values between = .failed ⟨error, []⟩ last →
      Raises (eval context (fuel + 1) (.mk ty span (.builtin builtin args)) state) error last
  | element {context : Context} {fuel : Nat} {array : Slot} {index : Term} {value : Value}
      {state between last : State} {error : RuntimeError} :
      Machine.eval context fuel index state = .done value between →
      elementLocation array value.toI64 between = .failed ⟨error, []⟩ last →
      Raises (locate context (fuel + 1) (.element array index) state) error last
  | field {context : Context} {fuel : Nat} {owner : Slot} {index : Nat} {state last : State}
      {error : RuntimeError} :
      fieldLocation owner index state = .failed ⟨error, []⟩ last →
      Raises (locate context (fuel + 1) (.field owner index) state) error last
  | newArray {context : Context} {fuel : Nat} {slot : Slot} {kind : Kind} {length : Term}
      {size : Value} {state between last : State} {error : RuntimeError} :
      Machine.eval context fuel length state = .done size between →
      Machine.newArray slot kind size.toI64 between = .failed ⟨error, []⟩ last →
      Raises (exec context (fuel + 1) (.newArray slot kind length) state) error last
  /-- The function that is called may not be entered. -/
  | refused {context : Context} {fuel : Nat} {id : FunctionId} {args : List Value} {state : State}
      {error : RuntimeError} :
      enter context id = .error error →
      Raises (call context (fuel + 1) id args state) error state

def EndsWell (point : Point) : Prop := ∃ last, point.ending = .done () last

theorem EndsWell.not_failed {point : Point} {failure : Failure} {last : State}
    (well : point.EndsWell) : point.ending ≠ .failed failure last := by
  obtain ⟨other, done⟩ := well
  rw [done]
  intro impossible
  cases impossible

theorem EndsWell.not_exhausted {point : Point} (well : point.EndsWell) :
    point.ending ≠ .exhausted := by
  obtain ⟨other, done⟩ := well
  rw [done]
  intro impossible
  cases impossible

end Point

/-- A step and the points it calls: all of them end well, and it then ends well or raises an error;
or the last of them does not end well, and it ends in the same way. -/
inductive Concludes (Raised : RuntimeError → State → Prop) (calls : List Point)
    (ending : Outcome Unit) : Prop where
  | well (last : State) : (∀ point ∈ calls, point.EndsWell) → ending = .done () last →
      Concludes Raised calls ending
  | raised (error : RuntimeError) (last : State) : (∀ point ∈ calls, point.EndsWell) →
      Raised error last → ending = .failed ⟨error, []⟩ last → Concludes Raised calls ending
  | broken (before : List Point) (point : Point) : calls = before ++ [point] →
      (∀ other ∈ before, other.EndsWell) → ¬ point.EndsWell → ending = point.ending →
      Concludes Raised calls ending

def Outcome.IsFresh {α : Type} : Outcome α → Prop
  | done _ _ => True
  | failed failure _ => failure.trace = []
  | exhausted => False

private theorem reference_fresh (slot : Slot) (state : State) : (reference slot state).IsFresh := by
  rw [reference_eq]
  split
  · trivial
  · rfl

private theorem load_fresh (location : Location) (state : State) :
    (load location state).IsFresh := by
  cases location with
  | whole slot => exact reference_fresh slot state
  | scalar slot => trivial
  | element array index => trivial
  | field owner index => trivial

private theorem elementLocation_fresh (slot : Slot) (index : Int64) (state : State) :
    (elementLocation slot index state).IsFresh := by
  rw [elementLocation_eq]
  split
  · split
    · trivial
    · rfl
  · rfl

private theorem fieldLocation_fresh (slot : Slot) (index : Nat) (state : State) :
    (fieldLocation slot index state).IsFresh := by
  rw [fieldLocation_eq]
  split
  · trivial
  · rfl

private theorem invoke_fresh (builtin : Builtin) (args : List Value) (state : State) :
    (invoke builtin args state).IsFresh := by
  obtain ⟨globals, locals, world⟩ := state
  unfold invoke
  simp only
  split
  · trivial
  · rfl

private theorem newArray_fresh (slot : Slot) (kind : Kind) (size : Int64) (state : State) :
    (newArray slot kind size state).IsFresh := by
  unfold newArray
  simp only
  split
  · trivial
  · rfl

namespace Concludes

variable {α β : Type} {Raised : RuntimeError → State → Prop} {state : State}

theorem none : ∀ point ∈ ([] : List Point), point.EndsWell := by
  intro point listed
  cases listed

theorem leaf {outcome : Outcome α} (fresh : outcome.IsFresh)
    (raises : ∀ error last, outcome = .failed ⟨error, []⟩ last → Raised error last) :
    Concludes Raised [] outcome.forget := by
  cases outcome with
  | done value last => exact .well last none rfl
  | failed failure last =>
      obtain ⟨error, trace⟩ := failure
      obtain rfl : trace = [] := fresh
      exact .raised error last none (raises error last rfl) rfl
  | exhausted => exact fresh.elim

theorem quiet (value : α) (state : State) :
    Concludes Raised [] (Outcome.done value state).forget :=
  .well state none rfl

/-- A call whose outcome is that of the step. -/
theorem whole {outcome : Outcome α} (point : Point) (same : outcome.forget = point.ending) :
    Concludes Raised [point] outcome.forget := by
  by_cases well : point.EndsWell
  · obtain ⟨last, done⟩ := well
    refine .well last ?_ (same.trans done)
    intro other listed
    rw [List.mem_singleton.mp listed]
    exact ⟨last, done⟩
  · exact .broken [] point rfl none well same

/-- What stands behind a call that ends well. -/
theorem cons {calls : List Point} {ending : Outcome Unit} (point : Point) (well : point.EndsWell)
    (rest : Concludes Raised calls ending) : Concludes Raised (point :: calls) ending := by
  cases rest with
  | well last each done => exact .well last (List.forall_mem_cons.mpr ⟨well, each⟩) done
  | raised error last each raised failed =>
      exact .raised error last (List.forall_mem_cons.mpr ⟨well, each⟩) raised failed
  | broken before broken split each notWell same =>
      subst split
      exact .broken (point :: before) broken rfl (List.forall_mem_cons.mpr ⟨well, each⟩) notWell same

/-- A call, and others behind it if it ends well. -/
theorem bind {step : Step α} {next : α → Step β} {behind : α → State → List Point} (point : Point)
    (same : (step state).forget = point.ending)
    (rest : ∀ value middle, step state = .done value middle →
      Concludes Raised (behind value middle) (next value middle).forget) :
    Concludes Raised ([point] ++ after (step state) behind) ((step >>= next) state).forget := by
  cases outcome : step state with
  | done value middle =>
      rw [bind_of_done outcome]
      rw [outcome] at same
      exact cons point ⟨middle, same.symm⟩ (rest value middle outcome)
  | failed failure middle =>
      rw [bind_of_failed outcome]
      rw [outcome] at same
      change Concludes Raised [point] (Outcome.failed failure middle : Outcome β).forget
      exact whole point same
  | exhausted =>
      rw [bind_of_exhausted outcome]
      rw [outcome] at same
      change Concludes Raised [point] (Outcome.exhausted : Outcome β).forget
      exact whole point same

/-- A call, and a step behind it that calls nothing. -/
theorem finish {step : Step α} {next : α → Step β} (point : Point)
    (same : (step state).forget = point.ending)
    (fresh : ∀ value middle, (next value middle).IsFresh)
    (raises : ∀ value middle, step state = .done value middle → ∀ error last,
      next value middle = .failed ⟨error, []⟩ last → Raised error last) :
    Concludes Raised [point] ((step >>= next) state).forget := by
  have nothing : after (step state) (fun _ _ => []) = ([] : List Point) := by
    cases step state <;> rfl
  have concludes : Concludes Raised ([point] ++ after (step state) fun _ _ => [])
      ((step >>= next) state).forget :=
    bind point same fun value middle done =>
      leaf (fresh value middle) (raises value middle done)
  rw [nothing] at concludes
  exact concludes

/-- A call whose result is only changed. -/
theorem computed {step : Step α} {result : α → β} (point : Point)
    (same : (step state).forget = point.ending) :
    Concludes Raised [point] ((step >>= fun value => pure (result value)) state).forget := by
  refine finish point same (fun _ _ => trivial) ?_
  intro value middle _ error last failed
  cases failed

/-- A step that calls nothing, and calls behind it if it ends well. -/
theorem behind {first : Step α} {next : α → Step β} {behind : α → State → List Point}
    (fresh : (first state).IsFresh)
    (raises : ∀ error last, first state = .failed ⟨error, []⟩ last → Raised error last)
    (rest : ∀ value middle, Concludes Raised (behind value middle) (next value middle).forget) :
    Concludes Raised (after (first state) behind) ((first >>= next) state).forget := by
  cases outcome : first state with
  | done value middle =>
      rw [bind_of_done outcome]
      exact rest value middle
  | failed failure middle =>
      obtain ⟨error, trace⟩ := failure
      rw [outcome] at fresh
      obtain rfl : trace = [] := fresh
      rw [bind_of_failed outcome]
      exact .raised error middle none (raises error middle outcome) rfl
  | exhausted =>
      rw [outcome] at fresh
      exact fresh.elim

/-- At most one of the calls does not end well, and then the step ends as it does. -/
theorem of_broken {calls : List Point} {ending : Outcome Unit} {point : Point}
    (concludes : Concludes Raised calls ending) (called : point ∈ calls)
    (notWell : ¬ point.EndsWell) :
    ending = point.ending ∧ ∀ other ∈ calls, ¬ other.EndsWell → other = point := by
  cases concludes with
  | well last each _ => exact absurd (each point called) notWell
  | raised error last each _ _ => exact absurd (each point called) notWell
  | broken before broken split each _ same =>
      subst split
      have only : ∀ other ∈ before ++ [broken], ¬ other.EndsWell → other = broken := by
        intro other listed otherNotWell
        rcases List.mem_append.mp listed with earlier | here
        · exact absurd (each other earlier) otherNotWell
        · exact List.mem_singleton.mp here
      obtain rfl := only point called notWell
      exact ⟨same, only⟩

end Concludes

/-! ### Points -/

namespace Point

variable {context : Context} {fuel : Nat} {state : State}

private theorem node_concludes {ty : Ty} {span : Span} (node : Node) :
    Concludes (Raises (eval context (fuel + 1) (.mk ty span node) state))
      (nodeCalls context fuel node state)
      (Machine.eval context (fuel + 1) (.mk ty span node) state).forget := by
  cases node with
  | literal value => exact .quiet value state
  | argument index => exact .quiet _ state
  | load place =>
      rw [Machine.eval, nodeCalls]
      refine .finish _ rfl load_fresh ?_
      intro location between found error last failed
      exact .load found failed
  | assign place value =>
      rw [Machine.eval, nodeCalls]
      refine .bind _ rfl ?_
      intro location between _
      refine .finish _ rfl ?_ ?_
      · intro result before
        obtain ⟨written, last, stored⟩ := store_eq_done location result before
        rw [stored]
        trivial
      · intro result before _ error last failed
        obtain ⟨written, after, stored⟩ := store_eq_done location result before
        rw [stored] at failed
        cases failed
  | update place fn operand rhs yieldsOld =>
      rw [Machine.eval, nodeCalls]
      refine .bind _ rfl ?_
      intro location between found
      refine .behind (load_fresh location between) ?_ ?_
      · intro error last failed
        exact .update found failed
      · intro old middle
        have stores (result : Value) (before : State) : ∃ value last, (do
            let _ ← store location (updated fn operand ty old result)
            return if yieldsOld then old else updated fn operand ty old result : Step Value)
              before = .done value last := by
          obtain ⟨written, last, stored⟩ :=
            store_eq_done location (updated fn operand ty old result) before
          exact ⟨_, last, bind_of_done stored⟩
        refine .finish _ rfl ?_ ?_
        · intro result before
          obtain ⟨value, last, done⟩ := stores result before
          rw [done]
          trivial
        · intro result before _ error last failed
          obtain ⟨value, after, done⟩ := stores result before
          rw [done] at failed
          cases failed
  | convert kind value =>
      rw [Machine.eval, nodeCalls]
      exact .computed _ rfl
  | truth value =>
      rw [Machine.eval, nodeCalls]
      exact .computed _ rfl
  | unary fn operand =>
      rw [Machine.eval, nodeCalls]
      exact .computed _ rfl
  | copy value =>
      rw [Machine.eval, nodeCalls]
      refine .finish _ rfl (fun _ _ => trivial) ?_
      intro result between _ error last failed
      cases failed
  | binary fn left right =>
      rw [Machine.eval, nodeCalls]
      refine .bind _ rfl ?_
      intro first between _
      exact .computed _ rfl
  | comma first second =>
      rw [Machine.eval, nodeCalls]
      refine .bind _ rfl ?_
      intro _ between _
      exact .whole _ rfl
  | logical isAnd left right =>
      rw [Machine.eval, nodeCalls]
      refine .bind _ rfl ?_
      intro first between _
      by_cases undecided : (first.truth == isAnd) = true
      · simp only [if_pos undecided]
        exact .computed _ rfl
      · simp only [if_neg undecided]
        exact .quiet _ between
  | conditional cond yes no =>
      rw [Machine.eval, nodeCalls]
      refine .bind _ rfl ?_
      intro test between _
      split
      · exact .whole _ rfl
      · exact .whole _ rfl
  | call id args =>
      rw [Machine.eval, nodeCalls]
      refine .bind _ rfl ?_
      intro values between _
      exact .whole _ rfl
  | builtin fn args =>
      rw [Machine.eval, nodeCalls]
      refine .finish _ rfl (invoke_fresh fn) ?_
      intro values between evaluated error last failed
      exact .builtin evaluated failed

private theorem command_concludes (command : Command) :
    Concludes (Raises (exec context (fuel + 1) command state))
      (commandCalls context fuel command state)
      (Machine.exec context (fuel + 1) command state).forget := by
  cases command with
  | expr term =>
      rw [Machine.exec, commandCalls]
      exact .computed _ rfl
  | block body =>
      rw [Machine.exec, commandCalls]
      exact .whole _ rfl
  | branch cond yes no =>
      unfold Machine.exec
      rw [commandCalls]
      refine .bind _ rfl ?_
      intro test between _
      by_cases holds : test.truth = true
      · simp only [if_pos holds]
        exact .whole _ rfl
      · simp only [if_neg holds]
        cases no with
        | some no => exact .whole _ rfl
        | none => exact .quiet _ between
  | whileLoop cond body step =>
      rw [Machine.exec, commandCalls]
      exact .whole _ rfl
  | doLoop body cond =>
      rw [Machine.exec, commandCalls]
      exact .whole _ rfl
  | brk => exact .quiet _ state
  | cont => exact .quiet _ state
  | ret value =>
      cases value with
      | none => exact .quiet _ state
      | some term =>
          rw [Machine.exec, commandCalls]
          exact .computed _ rfl
  | newArray slot kind length =>
      rw [Machine.exec, commandCalls]
      refine .finish _ rfl ?_ ?_
      · intro size between
        have fresh := newArray_fresh slot kind size.toI64 between
        cases outcome : Machine.newArray slot kind size.toI64 between with
        | done value last =>
            rw [bind_of_done outcome]
            trivial
        | failed failure last =>
            rw [bind_of_failed outcome]
            rw [outcome] at fresh
            exact fresh
        | exhausted =>
            rw [outcome] at fresh
            exact fresh.elim
      · intro size between evaluated error last failed
        refine .newArray evaluated ?_
        cases outcome : Machine.newArray slot kind size.toI64 between with
        | done value last =>
            rw [bind_of_done outcome] at failed
            cases failed
        | failed failure last =>
            rw [bind_of_failed outcome] at failed
            cases failed
            rfl
        | exhausted =>
            rw [bind_of_exhausted outcome] at failed
            cases failed
  | newStruct slot name members => exact .quiet _ (state.allocated slot (·.newStruct name members))
  | bind slot value =>
      rw [Machine.exec, commandCalls]
      refine .finish _ rfl (fun _ _ => trivial) ?_
      intro result between _ error last failed
      cases failed

private theorem again_concludes {Raised : RuntimeError → State → Prop} (cond : Term)
    (body : Command)
    (step : Option Term) :
    Concludes Raised (againCalls context fuel cond body step state)
      ((match step with
        | some term => (do
            let _ ← Machine.eval context fuel term
            Machine.execWhile context fuel cond body step : Step Flow)
        | none => Machine.execWhile context fuel cond body step) state).forget := by
  cases step with
  | none => exact .whole _ rfl
  | some term =>
      refine .bind _ rfl ?_
      intro _ between _
      exact .whole _ rfl

private theorem while_concludes {Raised : RuntimeError → State → Prop} (cond : Term)
    (body : Command)
    (step : Option Term) :
    Concludes Raised (execWhile context (fuel + 1) cond body step state).calls
      (Machine.execWhile context (fuel + 1) cond body step state).forget := by
  unfold Machine.execWhile
  rw [calls]
  refine .bind _ rfl ?_
  intro test between _
  by_cases holds : test.truth = true
  · simp only [if_pos holds]
    refine .bind _ rfl ?_
    intro flow behind _
    cases flow with
    | normal => exact again_concludes cond body step
    | cont => exact again_concludes cond body step
    | brk => exact .quiet _ behind
    | ret value => exact .quiet _ behind
  · simp only [if_neg holds]
    exact .quiet _ between

private theorem do_concludes {Raised : RuntimeError → State → Prop} (body : Command) (cond : Term) :
    Concludes Raised (execDo context (fuel + 1) body cond state).calls
      (Machine.execDo context (fuel + 1) body cond state).forget := by
  have again (between : State) : Concludes Raised
      ([eval context fuel cond between] ++ after (Machine.eval context fuel cond between)
        fun value state => if value.truth then [execDo context fuel body cond state] else [])
      ((do
        if (← Machine.eval context fuel cond).truth then Machine.execDo context fuel body cond
        else return .normal : Step Flow) between).forget := by
    refine .bind _ rfl ?_
    intro test behind _
    by_cases holds : test.truth = true
    · simp only [if_pos holds]
      exact .whole _ rfl
    · simp only [if_neg holds]
      exact .quiet _ behind
  rw [Machine.execDo, calls]
  refine .bind _ rfl ?_
  intro flow between _
  cases flow with
  | normal => exact again between
  | cont => exact again between
  | brk => exact .quiet _ between
  | ret value => exact .quiet _ between

theorem fuel_ne_zero_of_calls {point next : Point} (called : next ∈ point.calls) : point.fuel ≠ 0 := by
  intro spent
  rw [calls_of_spent spent] at called
  cases called

/-- A point with fuel that calls no function. -/
theorem concludes {point : Point} (other : point.isCall = false) (left : point.fuel ≠ 0) :
    Concludes point.Raises point.calls point.ending := by
  obtain ⟨fuel, amount⟩ := Nat.exists_eq_succ_of_ne_zero left
  cases point with
  | call context _ id args state => cases other
  | eval context _ term state =>
      cases amount
      obtain ⟨ty, span, node⟩ := term
      exact node_concludes node
  | evalAll context _ terms state =>
      cases amount
      cases terms with
      | nil => exact .quiet ([] : List Value) state
      | cons first rest =>
          rw [ending, Machine.evalAll, calls]
          refine .bind _ rfl ?_
          intro value between _
          exact .computed _ rfl
  | locate context _ place state =>
      cases amount
      cases place with
      | scalar slot => exact .quiet (Location.scalar slot) state
      | whole slot => exact .quiet (Location.whole slot) state
      | element array index =>
          rw [ending, Machine.locate, calls]
          refine .finish _ rfl (fun value => elementLocation_fresh array value.toI64) ?_
          intro value between evaluated error last failed
          exact .element evaluated failed
      | field owner index =>
          refine .leaf (fieldLocation_fresh owner index state) ?_
          intro error last failed
          exact .field failed
  | exec context _ command state =>
      cases amount
      exact command_concludes command
  | execAll context _ commands state =>
      cases amount
      cases commands with
      | nil => exact .quiet Flow.normal state
      | cons first rest =>
          rw [ending, Machine.execAll, calls]
          refine .bind _ rfl ?_
          intro flow between _
          cases flow with
          | normal => exact .whole _ rfl
          | brk => exact .quiet _ between
          | cont => exact .quiet _ between
          | ret value => exact .quiet _ between
  | execWhile context _ cond body step state =>
      cases amount
      exact while_concludes cond body step
  | execDo context _ body cond state =>
      cases amount
      exact do_concludes body cond

/-- A call of a function ends well, fails or runs out of fuel as the body does. -/
theorem call_ending {id : FunctionId} {args : List Value} {function : Function} {body : Command}
    (entered : enter context id = .ok (function, body)) :
    (exec context.deeper fuel body (state.entered function args)).EndsWell ∧
        (call context (fuel + 1) id args state).EndsWell ∨
      (∃ failure last,
        (exec context.deeper fuel body (state.entered function args)).ending =
            .failed failure last ∧
          (call context (fuel + 1) id args state).ending =
            .failed (failure.leave function.name) { last with locals := state.locals }) ∨
      (exec context.deeper fuel body (state.entered function args)).ending = .exhausted ∧
        (call context (fuel + 1) id args state).ending = .exhausted := by
  have same : (call context (fuel + 1) id args state).ending =
      (leave function state.locals
        (Machine.exec context.deeper fuel body (state.entered function args))).forget := by
    rw [ending, Machine.call, entered]
    rfl
  rw [EndsWell, EndsWell, same, ending]
  cases Machine.exec context.deeper fuel body (state.entered function args) with
  | done flow last =>
      refine Or.inl ⟨⟨last, rfl⟩, ?_⟩
      cases flow with
      | _ => exact ⟨_, rfl⟩
  | failed failure last => exact Or.inr (Or.inl ⟨failure, last, rfl, rfl⟩)
  | exhausted => exact Or.inr (Or.inr ⟨rfl, rfl⟩)

/-- A point runs out of fuel only if it has none or one of its calls does. -/
theorem exhausted_cases {point : Point} (exhausted : point.ending = .exhausted) :
    point.fuel = 0 ∨ ∃ next ∈ point.calls, next.ending = .exhausted := by
  by_cases spent : point.fuel = 0
  · exact Or.inl spent
  · refine Or.inr ?_
    cases isCall : point.isCall with
    | false =>
        cases concludes isCall spent with
        | well last _ done =>
            rw [done] at exhausted
            cases exhausted
        | raised error last _ _ failed =>
            rw [failed] at exhausted
            cases exhausted
        | broken before next split _ _ same =>
            refine ⟨next, ?_, same.symm.trans exhausted⟩
            rw [split]
            exact List.mem_append_right _ List.mem_cons_self
    | true =>
        cases point with
        | call context fuel id args state =>
            obtain ⟨fuel, rfl⟩ := Nat.exists_eq_succ_of_ne_zero spent
            cases entered : enter context id with
            | error error =>
                rw [ending, Machine.call, entered] at exhausted
                cases exhausted
            | ok found =>
                obtain ⟨function, body⟩ := found
                rw [calls_of_enter entered]
                rcases @call_ending context fuel state id args function body entered with
                  ⟨_, well⟩ | ⟨_, _, _, failed⟩ | ⟨bodyExhausted, _⟩
                · exact absurd exhausted well.not_exhausted
                · rw [failed] at exhausted
                  cases exhausted
                · exact ⟨_, List.mem_cons_self, bodyExhausted⟩
        | _ => cases isCall

end Point

/-! ### Runs -/

/-- A run raises no error itself. -/
theorem run_concludes (fuel : Nat) (program : Program) (entry : FunctionId) (limit : Nat)
    (world : World) :
    Concludes (fun _ _ => False) (runPoints fuel program entry limit world)
      (runOutcome fuel program entry limit world).forget := by
  have from_init (commands : List Command) (state : State) :
      Concludes (fun _ _ => False)
        (initPoints ⟨program, limit, 0⟩ fuel commands state ++
          after (execInit ⟨program, limit, 0⟩ fuel commands state) fun _ state =>
            [.call ⟨program, limit, 0⟩ fuel entry [] state])
        ((execInit ⟨program, limit, 0⟩ fuel commands >>= fun _ =>
          call ⟨program, limit, 0⟩ fuel entry []) state).forget := by
    induction commands generalizing state with
    | nil => exact .whole _ rfl
    | cons first rest ih =>
        rw [initPoints_cons, execInit_cons]
        exact .bind _ rfl fun _ middle _ => ih middle
  exact from_init program.init (.initial program world)

end MiniC.Machine
