import MiniC.Proofs.Machine.Limits

/-!
Runs under a limit.

Under a limit a run visits the same points as without it until the limit stops
it. What stops it is told by `Point.Course`: the limit is met at the point
itself, or in the last of its calls.
-/

namespace MiniC.Machine

namespace Point

def Refused (limit : Limit) : Point → Prop
  | eval context (fuel + 1) (.mk _ _ (.builtin builtin args)) state =>
      ∃ values between, Machine.evalAll context fuel args state = .done values between ∧
        limit.Stops (invoke builtin values (limit.onState between))
  | _ => False

section Follows

variable {limit : Limit} {context : Context} {fuel : Nat} {state : State}

private theorem node_follows (decided : limit.DecidesAt fuel) {ty : Ty} {span : Span} (node : Node)
    (notBuiltin : ∀ builtin args, node ≠ .builtin builtin args) :
    Follows limit (nodeCalls context fuel node state)
      (Machine.eval context (fuel + 1) (.mk ty span node) state)
      (nodeCalls (limit.onContext context) (limit.onFuel fuel) node (limit.onState state))
      (Machine.eval (limit.onContext context) (limit.onFuel fuel + 1) (.mk ty span node)
        (limit.onState state)) := by
  cases node with
  | builtin builtin args => exact absurd rfl (notBuiltin builtin args)
  | literal value => exact .quiet (.pure value) state
  | argument index =>
      have reads : Quiet (Step.read fun state => state.locals.argument index) :=
        .read fun _ _ => rfl
      exact .quiet reads state
  | load place =>
      rw [Machine.eval, Machine.eval]
      exact .finish _ rfl id (decided _ rfl) .load
  | assign place value =>
      rw [Machine.eval, Machine.eval]
      refine .bind _ rfl id (decided _ rfl) fun location between _ => ?_
      exact .finish _ rfl id (decided _ rfl) (.store location)
  | update place fn operand rhs yieldsOld =>
      rw [Machine.eval, Machine.eval]
      refine .bind _ rfl id (decided _ rfl) fun location between _ => ?_
      refine .behind (.load location) fun old middle => ?_
      refine .finish _ rfl id (decided _ rfl) fun result => ?_
      exact .bind (.store location _) fun _ => .pure _
  | convert kind value =>
      rw [Machine.eval, Machine.eval]
      exact .finish _ rfl id (decided _ rfl) fun _ => .pure _
  | truth value =>
      rw [Machine.eval, Machine.eval]
      exact .finish _ rfl id (decided _ rfl) fun _ => .pure _
  | unary fn operand =>
      rw [Machine.eval, Machine.eval]
      exact .finish _ rfl id (decided _ rfl) fun _ => .pure _
  | copy value =>
      rw [Machine.eval, Machine.eval]
      exact .finish _ rfl id (decided _ rfl) fun result => .onHeap (·.copy result)
  | binary fn left right =>
      rw [Machine.eval, Machine.eval]
      refine .bind _ rfl id (decided _ rfl) fun first between _ => ?_
      exact .finish _ rfl id (decided _ rfl) fun _ => .pure _
  | comma first second =>
      rw [Machine.eval, Machine.eval]
      refine .bind _ rfl id (decided _ rfl) fun _ between _ => ?_
      exact .whole _ rfl id (decided _ rfl)
  | logical isAnd left right =>
      rw [Machine.eval, Machine.eval]
      refine .bind _ rfl id (decided _ rfl) fun first between _ => ?_
      by_cases undecided : (first.truth == isAnd) = true
      · simp only [if_pos undecided]
        exact .finish _ rfl id (decided _ rfl) fun _ => .pure _
      · simp only [if_neg undecided]
        exact .quiet (.pure _) between
  | conditional cond yes no =>
      rw [Machine.eval, Machine.eval]
      refine .bind _ rfl id (decided _ rfl) fun test between _ => ?_
      by_cases holds : test.truth = true
      · simp only [if_pos holds]
        exact .whole _ rfl id (decided _ rfl)
      · simp only [if_neg holds]
        exact .whole _ rfl id (decided _ rfl)
  | call id args =>
      rw [Machine.eval, Machine.eval]
      refine .bind _ rfl (fun spared => spared) (decided _ rfl) fun values between _ => ?_
      exact .whole _ rfl (fun spared => spared) (decided _ rfl)

private theorem terms_follow (decided : limit.DecidesAt fuel) (terms : List Term) :
    Follows limit (evalAll context (fuel + 1) terms state).calls
      (Machine.evalAll context (fuel + 1) terms state)
      (evalAll (limit.onContext context) (limit.onFuel fuel + 1) terms
        (limit.onState state)).calls
      (Machine.evalAll (limit.onContext context) (limit.onFuel fuel + 1) terms
        (limit.onState state)) := by
  cases terms with
  | nil => exact .quiet (.pure _) state
  | cons first rest =>
      rw [Machine.evalAll, Machine.evalAll, calls, calls]
      refine .bind _ rfl id (decided _ rfl) fun value between _ => ?_
      exact .finish _ rfl id (decided _ rfl) fun _ => .pure _

private theorem place_follows (decided : limit.DecidesAt fuel) (place : Place) :
    Follows limit (locate context (fuel + 1) place state).calls
      (Machine.locate context (fuel + 1) place state)
      (locate (limit.onContext context) (limit.onFuel fuel + 1) place (limit.onState state)).calls
      (Machine.locate (limit.onContext context) (limit.onFuel fuel + 1) place
        (limit.onState state)) := by
  cases place with
  | scalar slot => exact .quiet (.pure _) state
  | whole slot => exact .quiet (.pure _) state
  | element array index =>
      rw [Machine.locate, Machine.locate, calls, calls]
      exact .finish _ rfl id (decided _ rfl) fun _ => .elementLocation array _
  | field owner index => exact .quiet (.fieldLocation owner index) state

private theorem command_follows (decided : limit.DecidesAt fuel) (command : Command) :
    Follows limit (commandCalls context fuel command state)
      (Machine.exec context (fuel + 1) command state)
      (commandCalls (limit.onContext context) (limit.onFuel fuel) command (limit.onState state))
      (Machine.exec (limit.onContext context) (limit.onFuel fuel + 1) command
        (limit.onState state)) := by
  cases command with
  | expr term =>
      rw [Machine.exec, Machine.exec]
      exact .finish _ rfl id (decided _ rfl) fun _ => .pure _
  | block body => exact .whole _ rfl id (decided _ rfl)
  | branch cond yes no =>
      unfold Machine.exec
      refine .bind _ rfl id (decided _ rfl) fun test between _ => ?_
      by_cases holds : test.truth = true
      · simp only [if_pos holds]
        exact .whole _ rfl id (decided _ rfl)
      · simp only [if_neg holds]
        cases no with
        | some no => exact .whole _ rfl id (decided _ rfl)
        | none => exact .quiet (.pure _) between
  | whileLoop cond body step => exact .whole _ rfl id (decided _ rfl)
  | doLoop body cond => exact .whole _ rfl id (decided _ rfl)
  | brk => exact .quiet (.pure _) state
  | cont => exact .quiet (.pure _) state
  | ret value =>
      cases value with
      | none => exact .quiet (.pure _) state
      | some term =>
          rw [Machine.exec, Machine.exec]
          exact .finish _ rfl id (decided _ rfl) fun _ => .pure _
  | newArray slot kind length =>
      rw [Machine.exec, Machine.exec]
      refine .finish _ rfl id (decided _ rfl) fun size => ?_
      exact .bind (.newArray slot kind _) fun _ => .pure _
  | newStruct slot name members =>
      have creates : Quiet (Machine.newStruct slot name members) :=
        .allocate slot (·.newStruct name members)
      rw [Machine.exec, Machine.exec]
      exact .quiet (.bind creates fun _ => .pure _) state
  | bind slot value =>
      rw [Machine.exec, Machine.exec]
      refine .finish _ rfl id (decided _ rfl) fun result => ?_
      exact .bind (.setReference slot result) fun _ => .pure _

private theorem commands_follow (decided : limit.DecidesAt fuel) (commands : List Command) :
    Follows limit (execAll context (fuel + 1) commands state).calls
      (Machine.execAll context (fuel + 1) commands state)
      (execAll (limit.onContext context) (limit.onFuel fuel + 1) commands
        (limit.onState state)).calls
      (Machine.execAll (limit.onContext context) (limit.onFuel fuel + 1) commands
        (limit.onState state)) := by
  cases commands with
  | nil => exact .quiet (.pure _) state
  | cons first rest =>
      rw [Machine.execAll, Machine.execAll, calls, calls]
      refine .bind _ rfl id (decided _ rfl) fun flow between _ => ?_
      cases flow with
      | normal => exact .whole _ rfl id (decided _ rfl)
      | brk => exact .quiet (.pure _) between
      | cont => exact .quiet (.pure _) between
      | ret value => exact .quiet (.pure _) between

private theorem again_follows (decided : limit.DecidesAt fuel) (cond : Term) (body : Command)
    (step : Option Term) :
    Follows limit (againCalls context fuel cond body step state)
      ((match step with
        | some term => (do
            let _ ← Machine.eval context fuel term
            Machine.execWhile context fuel cond body step : Step Flow)
        | none => Machine.execWhile context fuel cond body step) state)
      (againCalls (limit.onContext context) (limit.onFuel fuel) cond body step
        (limit.onState state))
      ((match step with
        | some term => (do
            let _ ← Machine.eval (limit.onContext context) (limit.onFuel fuel) term
            Machine.execWhile (limit.onContext context) (limit.onFuel fuel) cond body step
              : Step Flow)
        | none => Machine.execWhile (limit.onContext context) (limit.onFuel fuel) cond body step)
          (limit.onState state)) := by
  cases step with
  | none => exact .whole _ rfl id (decided _ rfl)
  | some term =>
      refine .bind _ rfl id (decided _ rfl) fun _ between _ => ?_
      exact .whole _ rfl id (decided _ rfl)

private theorem while_follows (decided : limit.DecidesAt fuel) (cond : Term) (body : Command)
    (step : Option Term) :
    Follows limit (execWhile context (fuel + 1) cond body step state).calls
      (Machine.execWhile context (fuel + 1) cond body step state)
      (execWhile (limit.onContext context) (limit.onFuel fuel + 1) cond body step
        (limit.onState state)).calls
      (Machine.execWhile (limit.onContext context) (limit.onFuel fuel + 1) cond body step
        (limit.onState state)) := by
  unfold Machine.execWhile
  rw [calls, calls]
  refine .bind _ rfl id (decided _ rfl) fun test between _ => ?_
  by_cases holds : test.truth = true
  · simp only [if_pos holds]
    refine .bind _ rfl id (decided _ rfl) fun flow behind _ => ?_
    cases flow with
    | normal => exact again_follows decided cond body step
    | cont => exact again_follows decided cond body step
    | brk => exact .quiet (.pure _) behind
    | ret value => exact .quiet (.pure _) behind
  · simp only [if_neg holds]
    exact .quiet (.pure _) between

private theorem do_follows (decided : limit.DecidesAt fuel) (body : Command) (cond : Term) :
    Follows limit (execDo context (fuel + 1) body cond state).calls
      (Machine.execDo context (fuel + 1) body cond state)
      (execDo (limit.onContext context) (limit.onFuel fuel + 1) body cond
        (limit.onState state)).calls
      (Machine.execDo (limit.onContext context) (limit.onFuel fuel + 1) body cond
        (limit.onState state)) := by
  have again (between : State) : Follows limit
      ([eval context fuel cond between] ++ after (Machine.eval context fuel cond between)
        fun value state => if value.truth then [execDo context fuel body cond state] else [])
      ((do
        if (← Machine.eval context fuel cond).truth then Machine.execDo context fuel body cond
        else return .normal : Step Flow) between)
      ([eval (limit.onContext context) (limit.onFuel fuel) cond (limit.onState between)] ++
        after (Machine.eval (limit.onContext context) (limit.onFuel fuel) cond
          (limit.onState between)) fun value state =>
            if value.truth then
              [execDo (limit.onContext context) (limit.onFuel fuel) body cond state]
            else [])
      ((do
        if (← Machine.eval (limit.onContext context) (limit.onFuel fuel) cond).truth then
          Machine.execDo (limit.onContext context) (limit.onFuel fuel) body cond
        else return .normal : Step Flow) (limit.onState between)) := by
    refine .bind _ rfl id (decided _ rfl) fun test behind _ => ?_
    by_cases holds : test.truth = true
    · simp only [if_pos holds]
      exact .whole _ rfl id (decided _ rfl)
    · simp only [if_neg holds]
      exact .quiet (.pure _) behind
  rw [Machine.execDo, Machine.execDo, calls, calls]
  refine .bind _ rfl id (decided _ rfl) fun flow between _ => ?_
  cases flow with
  | normal => exact again between
  | cont => exact again between
  | brk => exact .quiet (.pure _) between
  | ret value => exact .quiet (.pure _) between

end Follows

/-! ### Courses -/

/-- What becomes of a point under a limit. -/
inductive Course (limit : Limit) (point : Point) : Prop where
  | spared : (point.under limit).calls = point.calls.map (under limit) →
      (∀ other ∈ point.calls, other.Spared limit) → point.Spared limit → Course limit point
  /-- The last of its calls is stopped. -/
  | inner (before behind : List Point) (last : Point) : point.isCall = false →
      point.calls = before ++ last :: behind →
      (point.under limit).calls = before.map (under limit) ++ [last.under limit] →
      (∀ other ∈ before, other.Spared limit) → last.Stopped limit →
      (point.under limit).ending = (last.under limit).ending → Course limit point
  /-- The body of the function that it calls is stopped. -/
  | enters (context : Context) (fuel : Nat) (id : FunctionId) (args : List Value) (state : State)
      (function : Function) (body : Command) : point = call context (fuel + 1) id args state →
      limit.onFuel (fuel + 1) = limit.onFuel fuel + 1 →
      enter context id = .ok (function, body) →
      enter (limit.onContext context) id = .ok (function, body) →
      (exec context.deeper fuel body (state.entered function args)).Stopped limit →
      Course limit point
  /-- The builtin that it calls is stopped. -/
  | refused : point.Refused limit → (point.under limit).calls = point.calls.map (under limit) →
      (∀ other ∈ point.calls, other.Spared limit) → point.Stopped limit → Course limit point
  /-- It may not enter the function that it calls. -/
  | overflows (context : Context) (fuel : Nat) (id : FunctionId) (args : List Value)
      (state : State) (error : RuntimeError) : point = call context (fuel + 1) id args state →
      limit.onFuel (fuel + 1) = limit.onFuel fuel + 1 →
      enter (limit.onContext context) id = .error error → limit.blames error = true →
      Course limit point
  | exhausted : limit.isFuel = true → (point.under limit).fuel = 0 → Course limit point

/-! Points without fuel -/

private theorem fuel_under (limit : Limit) (point : Point) :
    (point.under limit).fuel = limit.onFuel point.fuel := by
  cases point <;> rfl

theorem ending_of_spent {point : Point} (spent : point.fuel = 0) : point.ending = .exhausted := by
  cases point with
  | _ =>
      change _ = 0 at spent
      subst spent
      rfl

theorem calls_of_spent {point : Point} (spent : point.fuel = 0) : point.calls = [] := by
  cases point with
  | _ =>
      change _ = 0 at spent
      subst spent
      rfl

section Courses

variable {limit : Limit} {point limited : Point} {context : Context} {fuel : Nat} {state : State}

/-- A point that calls no function and no builtin itself. -/
theorem Course.of_follows {α : Type} {outcome limitedOutcome : Outcome α} (limited : Point)
    (follows : Follows limit point.calls outcome limited.calls limitedOutcome)
    (other : point.isCall = false) (same : point.under limit = limited)
    (ends : limited.ending = limitedOutcome.forget)
    (spares : limit.Spares outcome limitedOutcome → point.Spared limit) :
    point.Course limit := by
  subst same
  cases follows with
  | spared sameCalls each spared => exact .spared sameCalls each (spares spared)
  | stopped before behind last splitCalls sameCalls each stopped lastEnds =>
      exact .inner before behind last other splitCalls sameCalls each stopped
        (ends.trans lastEnds)

private theorem builtin_course (decided : limit.DecidesAt fuel) (builtin : Builtin)
    (args : List Term)
    {ty : Ty} {span : Span} (left : limit.onFuel (fuel + 1) = limit.onFuel fuel + 1) :
    (eval context (fuel + 1) (.mk ty span (.builtin builtin args)) state).Course limit := by
  have same : (eval context (fuel + 1) (.mk ty span (.builtin builtin args)) state).under limit =
      eval (limit.onContext context) (limit.onFuel fuel + 1) (.mk ty span (.builtin builtin args))
        (limit.onState state) := by
    rw [under, left]
  have steps (context : Context) (fuel : Nat) (state : State) :
      Machine.eval context (fuel + 1) (.mk ty span (.builtin builtin args)) state =
        (Machine.evalAll context fuel args >>= fun values => invoke builtin values) state := by
    rw [Machine.eval]
  rcases decided (evalAll context fuel args state) rfl with spared | stopped
  · have each : ∀ other ∈ [evalAll context fuel args state], other.Spared limit := by
      intro other listed
      rw [List.mem_singleton.mp listed]
      exact spared
    obtain ⟨sameArgs, notStopped⟩ := spared
    have go (spares : limit.Spares
        ((Machine.evalAll context fuel args >>= fun values => invoke builtin values) state)
        ((Machine.evalAll (limit.onContext context) (limit.onFuel fuel) args >>=
          fun values => invoke builtin values) (limit.onState state))) :
        (eval context (fuel + 1) (.mk ty span (.builtin builtin args)) state).Course limit := by
      refine .spared (by rw [same]; rfl) each ?_
      rw [Spared, left, steps, steps]
      exact spares
    cases evaluated : Machine.evalAll context fuel args state with
    | done values between =>
        rw [evaluated] at sameArgs
        rcases invoke_decided limit builtin values between with spares | stops
        · apply go
          rw [bind_of_done evaluated, bind_of_done sameArgs]
          exact spares
        · refine .refused ⟨values, between, evaluated, stops⟩ (by rw [same]; rfl) each ?_
          rw [Stopped, same, ending, steps, bind_of_done sameArgs, Limit.stops_forget]
          exact stops
    | failed failure between =>
        rw [evaluated] at sameArgs
        rw [sameArgs] at notStopped
        apply go
        rw [bind_of_failed evaluated, bind_of_failed sameArgs]
        exact ⟨rfl, notStopped⟩
    | exhausted =>
        rw [evaluated] at sameArgs
        rw [sameArgs] at notStopped
        apply go
        rw [bind_of_exhausted evaluated, bind_of_exhausted sameArgs]
        exact ⟨rfl, notStopped⟩
  · refine .inner [] [] (evalAll context fuel args state) rfl rfl (by rw [same]; rfl)
      (fun _ impossible => absurd impossible List.not_mem_nil) stopped ?_
    rw [same, ending, steps]
    unfold Stopped under at stopped
    rw [ending, Limit.stops_forget] at stopped
    cases evaluated : Machine.evalAll (limit.onContext context) (limit.onFuel fuel) args
        (limit.onState state) with
    | done values between =>
        rw [evaluated] at stopped
        exact stopped.elim
    | failed failure between =>
        rw [bind_of_failed evaluated, under, ending, evaluated]
        rfl
    | exhausted =>
        rw [bind_of_exhausted evaluated, under, ending, evaluated]
        rfl

private theorem call_course (decided : limit.DecidesAt fuel) (id : FunctionId) (args : List Value)
    (left : limit.onFuel (fuel + 1) = limit.onFuel fuel + 1) :
    (call context (fuel + 1) id args state).Course limit := by
  have same : (call context (fuel + 1) id args state).under limit =
      call (limit.onContext context) (limit.onFuel fuel + 1) id args (limit.onState state) := by
    rw [under, left]
  rcases limit.enter_decided context id with ⟨sameEnter, usual⟩ | ⟨error, entered, blamed⟩
  · cases entered : enter context id with
    | error error =>
        rw [entered] at sameEnter
        refine .spared ?_ ?_ ?_
        · rw [same, calls, calls, sameEnter, entered]
          rfl
        · rw [calls, entered]
          intro other impossible
          cases impossible
        · rw [Spared, left, Machine.call, Machine.call, sameEnter, entered]
          refine ⟨rfl, ?_⟩
          intro stops
          have blamed : limit.blames error = true := stops
          rw [usual error entered] at blamed
          cases blamed
    | ok found =>
        obtain ⟨function, body⟩ := found
        rw [entered] at sameEnter
        rcases decided (exec context.deeper fuel body (state.entered function args)) rfl with
          spared | stopped
        · refine .spared ?_ ?_ ?_
          · rw [same, calls_of_enter entered, calls_of_enter sameEnter, List.map_singleton, under,
              limit.onContext_deeper]
            rfl
          · rw [calls_of_enter entered]
            intro other listed
            rw [List.mem_singleton.mp listed]
            exact spared
          · rw [Spared, left, Machine.call, Machine.call, sameEnter, entered]
            exact limit.spares_leave function state.locals spared
        · exact .enters context fuel id args state function body rfl left entered sameEnter stopped
  · exact .overflows context fuel id args state error rfl left entered blamed

theorem course_succ (decided : limit.DecidesAt fuel) (amount : point.fuel = fuel + 1) :
    point.Course limit := by
  rcases limit.onFuel_succ fuel with ⟨isFuel, none⟩ | left
  · refine .exhausted isFuel ?_
    rw [fuel_under, amount, none]
  · cases point with
    | call context amount id args state =>
        change _ = fuel + 1 at amount
        subst amount
        exact call_course decided id args left
    | eval context _ term state =>
        change _ = fuel + 1 at amount
        subst amount
        obtain ⟨ty, span, node⟩ := term
        by_cases isBuiltin : ∃ builtin args, node = .builtin builtin args
        · obtain ⟨builtin, args, rfl⟩ := isBuiltin
          exact builtin_course decided builtin args left
        · have notBuiltin : ∀ builtin args, node ≠ .builtin builtin args :=
            fun builtin args same => isBuiltin ⟨builtin, args, same⟩
          have follows := @node_follows limit context fuel state decided ty span node notBuiltin
          refine .of_follows (eval _ (limit.onFuel fuel + 1) (.mk ty span node) _) follows rfl
            (by rw [under, left]) rfl ?_
          rw [Spared, left]
          exact id
    | evalAll context _ terms state =>
        change _ = fuel + 1 at amount
        subst amount
        refine .of_follows _ (terms_follow decided terms) rfl (by rw [under, left]) rfl ?_
        rw [Spared, left]
        exact id
    | locate context _ place state =>
        change _ = fuel + 1 at amount
        subst amount
        refine .of_follows _ (place_follows decided place) rfl (by rw [under, left]) rfl ?_
        rw [Spared, left]
        exact id
    | exec context _ command state =>
        change _ = fuel + 1 at amount
        subst amount
        have follows := @command_follows limit context fuel state decided command
        refine .of_follows (exec _ (limit.onFuel fuel + 1) command _) follows rfl
          (by rw [under, left]) rfl ?_
        rw [Spared, left]
        exact id
    | execAll context _ commands state =>
        change _ = fuel + 1 at amount
        subst amount
        refine .of_follows _ (commands_follow decided commands) rfl (by rw [under, left]) rfl ?_
        rw [Spared, left]
        exact id
    | execWhile context _ cond body step state =>
        change _ = fuel + 1 at amount
        subst amount
        refine .of_follows _ (while_follows decided cond body step) rfl (by rw [under, left]) rfl ?_
        rw [Spared, left]
        exact id
    | execDo context _ body cond state =>
        change _ = fuel + 1 at amount
        subst amount
        refine .of_follows _ (do_follows decided body cond) rfl (by rw [under, left]) rfl ?_
        rw [Spared, left]
        exact id

theorem Course.cases (course : point.Course limit) :
    (point.under limit).calls = point.calls.map (under limit) ∧
        (∀ other ∈ point.calls, other.Spared limit) ∧ point.Spared limit ∨
      point.Stopped limit := by
  cases course with
  | spared sameCalls each spared => exact Or.inl ⟨sameCalls, each, spared⟩
  | refused _ _ _ stopped => exact Or.inr stopped
  | inner before behind last _ _ _ _ stopped same =>
      refine Or.inr ?_
      unfold Stopped
      rw [same]
      exact stopped
  | enters context fuel id args state function body same left _ entered stopped =>
      refine Or.inr ?_
      subst same
      rw [Stopped, under, left, ending, Machine.call, entered, Limit.stops_forget]
      exact (Limit.stops_leave function _).mpr (Limit.stops_forget.mp stopped)
  | overflows context fuel id args state error same left refused blamed =>
      refine Or.inr ?_
      subst same
      rw [Stopped, under, left, ending, Machine.call, refused]
      exact blamed
  | exhausted isFuel none =>
      refine Or.inr ?_
      rw [Stopped, ending_of_spent none]
      exact isFuel

theorem Course.decided (course : point.Course limit) :
    point.Spared limit ∨ point.Stopped limit :=
  course.cases.imp_left fun spared => spared.2.2

theorem course_zero (none : point.fuel = 0) : point.Course limit := by
  have left : limit.onFuel 0 = 0 := by
    cases limit with
    | fuel less => exact Nat.zero_sub less
    | depth calls => rfl
    | output bytes => rfl
  cases isFuel : limit.isFuel with
  | true =>
      refine .exhausted isFuel ?_
      rw [fuel_under, none, left]
  | false =>
      have notStopped {α : Type} : ¬ limit.Stops (Outcome.exhausted : Outcome α) := by
        intro stops
        rw [Limit.Stops, isFuel] at stops
        cases stops
      cases point with
      | _ =>
          change _ = 0 at none
          subst none
          refine .spared ?_ ?_ ?_
          · rw [under, left]
            rfl
          · intro other impossible
            cases impossible
          · rw [Spared, left]
            exact ⟨rfl, notStopped⟩

end Courses

theorem course (limit : Limit) (point : Point) : point.Course limit := by
  induction amount : point.fuel generalizing point with
  | zero => exact course_zero amount
  | succ fuel ih => exact course_succ (fun other same => (ih other same).decided) amount

theorem decided (limit : Limit) (point : Point) : point.Spared limit ∨ point.Stopped limit :=
  (course limit point).decided

/-- A call fails as the body of the function does. -/
theorem ending_of_body_failed {context : Context} {fuel : Nat} {id : FunctionId}
    {args : List Value} {state last : State} {function : Function} {body : Command}
    {failure : Failure} (entered : enter context id = .ok (function, body))
    (failed : (exec context.deeper fuel body (state.entered function args)).ending =
      .failed failure last) :
    (call context (fuel + 1) id args state).ending =
      .failed (failure.leave function.name) { last with locals := state.locals } := by
  rw [ending, Machine.call, entered]
  rw [ending] at failed
  change (leave function state.locals
    (Machine.exec context.deeper fuel body (state.entered function args))).forget = _
  generalize Machine.exec context.deeper fuel body (state.entered function args) = outcome at *
  cases outcome with
  | done flow inner => cases failed
  | exhausted => cases failed
  | failed failure inner =>
      cases failed
      rfl

theorem not_stopped_of_spared {limit : Limit} {point : Point} (spared : point.Spared limit) :
    ¬ point.Stopped limit := by
  unfold Stopped
  cases point with
  | _ => exact fun stops => spared.2 (Limit.stops_forget.mp stops)

/-- What a spared point calls is spared, too. -/
theorem calls_of_spared {limit : Limit} {point : Point} (spared : point.Spared limit) :
    (point.under limit).calls = point.calls.map (under limit) ∧
      ∀ other ∈ point.calls, other.Spared limit := by
  rcases (course limit point).cases with ⟨sameCalls, each, _⟩ | stopped
  · exact ⟨sameCalls, each⟩
  · exact absurd stopped (not_stopped_of_spared spared)

private theorem mem_calls_under {limit : Limit} {point next : Point}
    (called : next ∈ (point.under limit).calls) :
    ∃ origin ∈ point.calls, origin.under limit = next := by
  cases course limit point with
  | spared sameCalls _ _ =>
      rw [sameCalls] at called
      exact List.mem_map.mp called
  | refused _ sameCalls _ _ =>
      rw [sameCalls] at called
      exact List.mem_map.mp called
  | inner before behind last _ splitCalls sameCalls _ _ _ =>
      rw [sameCalls] at called
      rw [splitCalls]
      rcases List.mem_append.mp called with earlier | here
      · obtain ⟨origin, listed, same⟩ := List.mem_map.mp earlier
        exact ⟨origin, List.mem_append_left _ listed, same⟩
      · rw [List.mem_singleton.mp here]
        exact ⟨last, List.mem_append_right _ List.mem_cons_self, rfl⟩
  | enters context fuel id args state function body same left entered limitedEntered _ =>
      subst same
      rw [under, left, calls_of_enter limitedEntered] at called
      rw [calls_of_enter entered, List.mem_singleton.mp called]
      exact ⟨_, List.mem_cons_self, rfl⟩
  | overflows context fuel id args state error same left refused _ =>
      subst same
      rw [under, left, calls, refused] at called
      cases called
  | exhausted _ spent =>
      rw [calls_of_spent spent] at called
      cases called

/-- Under a limit a point leads to nothing that it does not lead to without. -/
theorem Within.free {limit : Limit} {point reached : Point}
    (within : (point.under limit).Within reached) :
    ∃ origin, point.Within origin ∧ origin.under limit = reached := by
  generalize same : point.under limit = limited at within
  induction within generalizing point with
  | here limited => exact ⟨point, .here point, same⟩
  | @deeper limited next reached called _ ih =>
      subst same
      obtain ⟨origin, listed, rfl⟩ := mem_calls_under called
      obtain ⟨found, within, same⟩ := ih rfl
      exact ⟨found, .deeper listed within, same⟩

end Point

/-! ### Runs under a limit -/

/-- How a run ends, before its state is cut down to the world. -/
def runOutcome (fuel : Nat) (program : Program) (entry : FunctionId) (calls : Nat)
    (world : World) : Outcome Value :=
  (execInit ⟨program, calls, 0⟩ fuel program.init >>= fun _ =>
    call ⟨program, calls, 0⟩ fuel entry []) (.initial program world)

theorem runWith_eq (fuel : Nat) (program : Program) (entry : FunctionId) (calls : Nat)
    (world : World) :
    runWith fuel program entry calls world =
      match runOutcome fuel program entry calls world with
      | .done value state => .finished value.exitCode? state.world
      | .failed failure state => .failed failure state.world
      | .exhausted => .exhausted :=
  rfl

private theorem init_follows (limit : Limit) (context : Context) (fuel : Nat) (entry : FunctionId)
    (commands : List Command) (state : State) :
    Follows limit
      (initPoints context fuel commands state ++
        after (execInit context fuel commands state) fun _ state =>
          [.call context fuel entry [] state])
      ((execInit context fuel commands >>= fun _ => call context fuel entry []) state)
      (initPoints (limit.onContext context) (limit.onFuel fuel) commands (limit.onState state) ++
        after (execInit (limit.onContext context) (limit.onFuel fuel) commands
          (limit.onState state)) fun _ state =>
            [.call (limit.onContext context) (limit.onFuel fuel) entry [] state])
      ((execInit (limit.onContext context) (limit.onFuel fuel) commands >>= fun _ =>
        call (limit.onContext context) (limit.onFuel fuel) entry []) (limit.onState state)) := by
  induction commands generalizing state with
  | nil => exact .whole _ rfl id (Point.decided limit _)
  | cons first rest ih =>
      rw [initPoints_cons, initPoints_cons, execInit_cons, execInit_cons]
      exact .bind _ rfl id (Point.decided limit _) fun _ middle _ => ih middle

theorem run_follows (limit : Limit) (fuel : Nat) (program : Program) (entry : FunctionId)
    (calls : Nat) (world : World) :
    Follows limit (runPoints fuel program entry calls world)
      (runOutcome fuel program entry calls world)
      (runPoints (limit.onFuel fuel) program entry (limit.onDepth calls) (limit.onWorld world))
      (runOutcome (limit.onFuel fuel) program entry (limit.onDepth calls)
        (limit.onWorld world)) :=
  init_follows limit ⟨program, calls, 0⟩ fuel entry program.init (.initial program world)

end MiniC.Machine
