import MiniC.Proofs.Machine.Order

/-!
Histories of runs.

What holds at the end of every point is proved by one induction over the points:
the calls of a point stand in a row, except that a call of a function hands a
frame of its own to the body. The history of a point lists the points it leads
to in the order in which they end, either all of them or those that work on the
same frame.
-/

namespace MiniC.Machine

def State.entered (state : State) (function : Function) (args : List Value) : State :=
  ⟨state.globals, .new function.layout args, state.world⟩

/-- The state behind a call, whose body has ended in `inner`. -/
inductive Leaves (function : Function) (caller : Frame) (inner : State) : State → Prop where
  | plain : Leaves function caller inner { inner with locals := caller }
  | zero : Leaves function caller inner
      { (inner.onHeap (Heap.zeroOf function.ret)).2 with locals := caller }

private theorem leave_last? {function : Function} {caller : Frame} {outcome : Outcome Flow}
    {last : State}
    (ended : (leave function caller outcome).last? = some last) :
    ∃ inner, outcome.last? = some inner ∧ Leaves function caller inner last := by
  cases outcome with
  | exhausted => cases ended
  | failed failure inner =>
      cases ended
      exact ⟨inner, rfl, .plain⟩
  | done flow inner =>
      cases flow with
      | ret value =>
          cases ended
          exact ⟨inner, rfl, .plain⟩
      | normal =>
          cases ended
          exact ⟨inner, rfl, .zero⟩
      | brk =>
          cases ended
          exact ⟨inner, rfl, .zero⟩
      | cont =>
          cases ended
          exact ⟨inner, rfl, .zero⟩

namespace Point

variable {context : Context} {fuel : Nat} {id : FunctionId} {args : List Value} {state : State}

theorem calls_of_enter {function : Function} {body : Command}
    (entered : enter context id = .ok (function, body)) :
    (call context (fuel + 1) id args state).calls =
      [exec context.deeper fuel body (state.entered function args)] := by
  rw [calls, entered]
  rfl

private theorem last?_of_enter {function : Function} {body : Command} {last : State}
    (entered : enter context id = .ok (function, body))
    (ended : (call context (fuel + 1) id args state).last? = some last) :
    ∃ inner, (exec context.deeper fuel body (state.entered function args)).last? = some inner ∧
      Leaves function state.locals inner last := by
  rw [last?, Machine.call, entered] at ended
  exact leave_last? ended

theorem call_cases {point : Point} (isCall : point.isCall = true) :
    point.calls = [] ∨ ∃ context fuel id args state function body,
      point = call context (fuel + 1) id args state ∧
        enter context id = .ok (function, body) := by
  cases point with
  | call context fuel id args state =>
      cases fuel with
      | zero => exact Or.inl rfl
      | succ fuel =>
          cases entered : enter context id with
          | error error =>
              refine Or.inl ?_
              rw [calls, entered]
          | ok found =>
              exact Or.inr ⟨context, fuel, id, args, state, found.1, found.2, rfl, entered⟩
  | _ => cases isCall

theorem entered_of_call {point next : Point} (isCall : point.isCall = true)
    (called : next ∈ point.calls) :
    point.calls = [next] ∧ next.fuel < point.fuel ∧
      ∃ function args, next.state = point.state.entered function args := by
  rcases call_cases isCall with
    none | ⟨context, fuel, id, args, state, function, body, rfl, entered⟩
  · rw [none] at called
    cases called
  · rw [calls_of_enter entered, List.mem_singleton] at called
    subst called
    exact ⟨calls_of_enter entered, Nat.lt_succ_self fuel, function, args, rfl⟩

theorem smaller {point next : Point} (called : next ∈ point.calls) : next.fuel < point.fuel := by
  cases isCall : point.isCall with
  | false => exact (runs isCall).smaller next called
  | true => exact (entered_of_call isCall called).2.1

/-- The calls of a point that are made in the same frame of the region. -/
def inner (region : Region) (point : Point) : List Point :=
  match region with
  | .global => point.calls
  | .activation => if point.isCall then [] else point.calls

theorem inner_eq_calls {point : Point} (other : point.isCall = false) (region : Region) :
    point.inner region = point.calls := by
  cases region with
  | global => rfl
  | activation => simp only [inner, other, Bool.false_eq_true, if_false]

theorem mem_calls_of_mem_inner {region : Region} {point next : Point}
    (listed : next ∈ point.inner region) : next ∈ point.calls := by
  cases region with
  | global => exact listed
  | activation =>
      unfold inner at listed
      simp only at listed
      split at listed
      · cases listed
      · exact listed

/-- What holds at the end of every point: it may be used at the ends of the calls of a point, which
stand in a row unless the point enters a function. -/
theorem end_induction {Holds : Point → State → Prop}
    (own : ∀ point before last, point.last? = some last →
      (∀ region, point.inner region = point.calls) →
      (∀ next ∈ point.calls, ∀ last, next.last? = some last → Holds next last) →
      Threads point.state point.calls before → point.Changes before last → Holds point last)
    (enters : ∀ context fuel id args state function body inner last,
      enter context id = .ok (function, body) →
      (call context (fuel + 1) id args state).last? = some last →
      Holds (exec context.deeper fuel body (state.entered function args)) inner →
      Leaves function state.locals inner last → Holds (call context (fuel + 1) id args state) last)
    (point : Point) (last : State) (ended : point.last? = some last) : Holds point last := by
  induction bound : point.fuel using Nat.strongRecOn generalizing point last with
  | ind fuel ih =>
      cases isCall : point.isCall with
      | false =>
          obtain ⟨before, threads, changes⟩ := (runs isCall).ends last ended
          refine own point before last ended (inner_eq_calls isCall) ?_ threads changes
          intro next called nextLast nextEnded
          have less := smaller called
          rw [bound] at less
          exact ih next.fuel less next nextLast nextEnded rfl
      | true =>
          cases point with
          | call context fuel id args state =>
              cases fuel with
              | zero => cases ended
              | succ fuel =>
                  cases entered : enter context id with
                  | error error =>
                      have noCalls : (call context (fuel + 1) id args state).calls = [] := by
                        rw [calls, entered]
                      have unchanged : last = state := by
                        rw [last?, Machine.call, entered] at ended
                        cases ended
                        rfl
                      subst unchanged
                      refine own _ last last ended ?_ ?_ ?_ (.none rfl last)
                      · intro region
                        cases region with
                        | global => rfl
                        | activation => exact noCalls.symm
                      · intro next called
                        rw [noCalls] at called
                        cases called
                      · rw [noCalls]
                        exact .nil last
                  | ok found =>
                      obtain ⟨function, body⟩ := found
                      obtain ⟨innerLast, bodyEnded, leaves⟩ := last?_of_enter entered ended
                      have less := Nat.lt_of_lt_of_eq (Nat.lt_succ_self fuel) bound
                      have holds := ih fuel less _ innerLast bodyEnded rfl
                      exact enters context fuel id args state function body innerLast last entered
                        ended holds leaves
          | _ => cases isCall

/-! ### Histories -/

/-- The points that a point leads to without leaving its frame of the region, in the order in which
they end; the point itself is the last of them. -/
def history (region : Region) (point : Point) : List Point :=
  ((point.inner region).attach.flatMap fun ⟨next, listed⟩ =>
    have : next.fuel < point.fuel := smaller (mem_calls_of_mem_inner listed)
    next.history region) ++ [point]
termination_by point.fuel

theorem history_eq (region : Region) (point : Point) :
    point.history region = (point.inner region).flatMap (history region) ++ [point] := by
  rw [history]
  simp only [List.flatMap_subtype, List.unattach_attach]

theorem mem_history_self (region : Region) (point : Point) : point ∈ point.history region := by
  rw [history_eq]
  exact List.mem_append_right _ List.mem_cons_self

theorem mem_history_of_mem_inner {region : Region} {point next reached : Point}
    (listed : next ∈ point.inner region) (within : reached ∈ next.history region) :
    reached ∈ point.history region := by
  rw [history_eq]
  exact List.mem_append_left _ (List.mem_flatMap.mpr ⟨next, listed, within⟩)

theorem mem_history_cases {region : Region} {point reached : Point}
    (within : reached ∈ point.history region) :
    reached = point ∨ ∃ next ∈ point.inner region, reached ∈ next.history region := by
  rw [history_eq] at within
  rcases List.mem_append.mp within with inside | self
  · exact Or.inr (List.mem_flatMap.mp inside)
  · exact Or.inl (List.mem_singleton.mp self)

/-- From the points of a run on, a point is reached when just the points `earlier` have ended, of
those that work on the same frame of the region. -/
inductive Reaches (region : Region) (points : List Point) : List Point → Point → Prop where
  | first {before behind : List Point} {point : Point} :
      points = before ++ point :: behind →
      Reaches region points (before.flatMap (history region)) point
  | inner {earlier before behind : List Point} {point next : Point} :
      Reaches region points earlier point → point.inner region = before ++ next :: behind →
      Reaches region points (earlier ++ before.flatMap (history region)) next
  /-- The body of a function has a frame of its own. -/
  | enters {earlier : List Point} {point next : Point} :
      region = .activation → point.isCall = true → Reaches region points earlier point →
      next ∈ point.calls → Reaches region points [] next

theorem Reaches.calls {region : Region} {points earlier : List Point} {point next : Point}
    (reached : Reaches region points earlier point) (called : next ∈ point.calls) :
    ∃ others, Reaches region points others next := by
  have inside (same : point.inner region = point.calls) :
      ∃ others, Reaches region points others next := by
    rw [← same] at called
    obtain ⟨before, behind, split⟩ := List.append_of_mem called
    exact ⟨_, .inner reached split⟩
  cases region with
  | global => exact inside rfl
  | activation =>
      cases isCall : point.isCall with
      | true => exact ⟨[], .enters rfl isCall reached called⟩
      | false => exact inside (inner_eq_calls isCall _)

end Point

/-- The initialisation goes on, or ends, with its first command. -/
theorem initPoints_cons (context : Context) (fuel : Nat) (first : Command) (rest : List Command)
    (state : State) (behind : State → List Point) :
    initPoints context fuel (first :: rest) state ++
        after (execInit context fuel (first :: rest) state) (fun _ => behind) =
      [.exec context fuel first state] ++
        after (exec context fuel first state) fun _ state =>
          initPoints context fuel rest state ++
            after (execInit context fuel rest state) fun _ => behind := by
  rw [initPoints, execInit]
  simp only [Bind.bind, Step.bind]
  cases exec context fuel first state <;> rfl

theorem execInit_cons {α : Type} (context : Context) (fuel : Nat) (first : Command)
    (rest : List Command) (next : Step α) (state : State) :
    (execInit context fuel (first :: rest) >>= fun _ => next) state =
      (exec context fuel first >>= fun _ => execInit context fuel rest >>= fun _ => next)
        state := by
  rw [execInit]
  simp only [Bind.bind, Step.bind]
  cases exec context fuel first state <;> rfl

private theorem init_runs {context : Context} {fuel : Nat} {entry : FunctionId}
    {commands : List Command}
    {state : State} :
    Runs (fuel + 1) state
      (initPoints context fuel commands state ++
        after (execInit context fuel commands state) fun _ state =>
          [.call context fuel entry [] state])
      ((execInit context fuel commands >>= fun _ => call context fuel entry []) state).last?
      Eq := by
  induction commands generalizing state with
  | nil => exact .whole _ (Nat.lt_succ_self fuel) rfl rfl fun _ => rfl
  | cons first rest ih =>
      rw [initPoints_cons, execInit_cons]
      refine .bind _ (Nat.lt_succ_self fuel) rfl rfl (fun _ => rfl) ?_
      intro _ middle _
      exact ih

/-- The world that a run leaves behind. -/
def Ending.world? : Ending → Option World
  | .finished _ world => some world
  | .failed _ world => some world
  | .exhausted => none

/-- The calls that a run makes itself stand in a row, from the first state to the last. -/
theorem runPoints_starts {fuel : Nat} {program : Program} {entry : FunctionId} {limit : Nat}
    {world : World} {earlier later : List Point} {point : Point}
    (split : runPoints fuel program entry limit world = earlier ++ point :: later) :
    Threads (.initial program world) earlier point.state :=
  init_runs.starts earlier point later split

theorem Visits.reaches {fuel : Nat} {program : Program} {entry : FunctionId} {limit : Nat}
    {world : World} {point : Point} (region : Region)
    (visited : Visits fuel program entry limit world point) :
    ∃ earlier, Point.Reaches region (runPoints fuel program entry limit world) earlier point := by
  refine @Visits.induction fuel program entry limit world (fun point => ∃ earlier,
    Point.Reaches region (runPoints fuel program entry limit world) earlier point)
    ?_ ?_ point visited
  · intro first listed
    obtain ⟨before, behind, split⟩ := List.append_of_mem listed
    exact ⟨_, .first split⟩
  · intro point reached next called
    obtain ⟨earlier, reached⟩ := reached
    exact reached.calls called

theorem runPoints_ends {fuel : Nat} {program : Program} {entry : FunctionId} {limit : Nat}
    {world last : World} (ended : (runWith fuel program entry limit world).world? = some last) :
    ∃ state, Threads (.initial program world) (runPoints fuel program entry limit world) state ∧
      state.world = last := by
  have run : Runs (fuel + 1) (.initial program world) (runPoints fuel program entry limit world)
      ((execInit ⟨program, limit, 0⟩ fuel program.init >>= fun _ =>
        call ⟨program, limit, 0⟩ fuel entry []) (.initial program world)).last? Eq := init_runs
  have sameState : ∃ state, ((execInit ⟨program, limit, 0⟩ fuel program.init >>= fun _ =>
      call ⟨program, limit, 0⟩ fuel entry []) (.initial program world)).last? = some state ∧
        state.world = last := by
    unfold runWith at ended
    simp only at ended
    split at ended
    · rename_i value state outcome
      cases ended
      exact ⟨state, by rw [outcome]; rfl, rfl⟩
    · rename_i failure state outcome
      cases ended
      exact ⟨state, by rw [outcome]; rfl, rfl⟩
    · cases ended
  obtain ⟨state, lastState, sameWorld⟩ := sameState
  obtain ⟨before, threads, rfl⟩ := run.ends state lastState
  exact ⟨before, threads, sameWorld⟩

end MiniC.Machine
