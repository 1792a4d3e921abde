import MiniC.Proofs.Builtin.Writes
import MiniC.Proofs.Machine.History

/-!
Limits of runs.

A run may be given less fuel, fewer calls at a time or a sink that takes less
output. A step under such a limit goes the same way as without it, unless the
limit stops it; `Follows` says so of a step together with the points it calls.
-/

namespace MiniC

def RuntimeError.isLimit : RuntimeError → Bool
  | .stackOverflow _ | .output _ => true
  | _ => false

namespace Machine

def State.mapSink (change : Sink → Sink) (state : State) : State :=
  ⟨state.globals, state.locals,
    ⟨state.world.heap, change state.world.sink, state.world.record?⟩⟩

namespace Outcome

variable {α : Type}

def mapState (change : State → State) : Outcome α → Outcome α
  | done value state => done value (change state)
  | failed failure state => failed failure (change state)
  | exhausted => exhausted

def forget : Outcome α → Outcome Unit
  | done _ state => done () state
  | failed failure state => failed failure state
  | exhausted => exhausted

def IsUsual : Outcome α → Prop
  | done _ _ => True
  | failed failure _ => failure.error.isLimit = false
  | exhausted => False

end Outcome

/-- A step that asks nothing of the sink and meets no limit. -/
def Quiet {α : Type} (step : Step α) : Prop :=
  ∀ change state, step (state.mapSink change) = (step state).mapState (State.mapSink change) ∧
    (step state).IsUsual

namespace Quiet

variable {α β : Type}

theorem pure (value : α) : Quiet (Pure.pure value : Step α) :=
  fun _ _ => ⟨rfl, trivial⟩

theorem fail {error : RuntimeError} (usual : error.isLimit = false) :
    Quiet (Step.fail error : Step α) :=
  fun _ _ => ⟨rfl, usual⟩

theorem read {view : State → α} (same : ∀ change state, view (state.mapSink change) = view state) :
    Quiet (Step.read view) := by
  intro change state
  unfold Step.read
  rw [same]
  exact ⟨rfl, trivial⟩

theorem modify {change : State → State}
    (same : ∀ other state, change (state.mapSink other) = (change state).mapSink other) :
    Quiet (Step.modify change) := by
  intro other state
  unfold Step.modify
  rw [same]
  exact ⟨rfl, trivial⟩

theorem bind {step : Step α} {next : α → Step β} (first : Quiet step)
    (rest : ∀ value, Quiet (next value)) : Quiet (step >>= next) := by
  intro change state
  obtain ⟨same, usual⟩ := first change state
  change Step.bind step next (state.mapSink change) =
    (Step.bind step next state).mapState (State.mapSink change) ∧
      (Step.bind step next state).IsUsual
  unfold Step.bind
  rw [same]
  cases outcome : step state with
  | done value middle => exact rest value change middle
  | failed failure middle =>
      rw [outcome] at usual
      exact ⟨rfl, usual⟩
  | exhausted =>
      rw [outcome] at usual
      exact usual.elim

theorem ite {condition : Prop} [Decidable condition] {yes no : Step α} (first : Quiet yes)
    (second : Quiet no) : Quiet (if condition then yes else no) := by
  split
  · exact first
  · exact second

theorem setReference (slot : Slot) (value : Value) :
    Quiet (Step.modify (State.setReference · slot value)) := by
  apply modify
  intro change state
  unfold State.setReference
  split <;> rfl

theorem reference (slot : Slot) : Quiet (Machine.reference slot) := by
  apply bind
  · apply read
    intro change state
    obtain ⟨region, index⟩ := slot
    cases region <;> rfl
  · intro found
    cases found with
    | none => exact fail rfl
    | some value => exact pure value

theorem elementLocation (slot : Slot) (index : Int64) :
    Quiet (Machine.elementLocation slot index) := by
  apply bind (reference slot)
  intro value
  cases value with
  | array address =>
      apply bind (read fun _ _ => rfl)
      intro length
      exact ite (pure _) (fail rfl)
  | _ => exact fail rfl

theorem fieldLocation (slot : Slot) (index : Nat) : Quiet (Machine.fieldLocation slot index) := by
  apply bind (reference slot)
  intro value
  cases value with
  | struct address => exact pure _
  | _ => exact fail rfl

theorem load (location : Location) : Quiet (Machine.load location) := by
  cases location with
  | whole slot => exact reference slot
  | element array index => exact read fun _ _ => rfl
  | field owner index => exact read fun _ _ => rfl
  | scalar slot =>
      apply read
      intro change state
      obtain ⟨region, index⟩ := slot
      cases region <;> rfl

theorem store (location : Location) (value : Value) : Quiet (Machine.store location value) := by
  cases location with
  | element array index => exact bind (modify fun _ _ => rfl) fun _ => pure value
  | field owner index => exact bind (modify fun _ _ => rfl) fun _ => pure value
  | scalar slot =>
      apply bind _ fun _ => pure value
      apply modify
      intro change state
      unfold State.setScalar
      split <;> rfl
  | whole slot =>
      apply bind
      · apply read
        intro change state
        obtain ⟨region, index⟩ := slot
        cases region <;> rfl
      · intro found
        split
        · exact bind (modify fun _ _ => rfl) fun _ => pure _
        · exact bind (setReference slot value) fun _ => pure value

theorem onHeap (operation : Heap → Value × Heap) : Quiet (Machine.onHeap operation) :=
  fun _ _ => ⟨rfl, trivial⟩

theorem allocate (slot : Slot) (operation : Heap → Value × Heap) :
    Quiet (Step.modify (State.allocated · slot operation)) := by
  apply modify
  intro change state
  unfold State.allocated State.setReference
  split <;> rfl

theorem newArray (slot : Slot) (kind : Kind) (size : Int64) :
    Quiet (Machine.newArray slot kind size) :=
  ite (allocate slot (·.newArray kind size.toInt.toNat)) (fail rfl)

end Quiet

/-- A limit that a run is put under. -/
inductive Limit where
  /-- So much less fuel. -/
  | fuel (less : Nat)
  /-- No more active calls than so many. -/
  | depth (calls : Nat)
  /-- No more output than another writer takes. -/
  | output (gate : Writer)

namespace Limit

variable {α : Type}

def onFuel : Limit → Nat → Nat
  | fuel less, given => given - less
  | _, given => given

def onDepth : Limit → Nat → Nat
  | depth calls, most => min calls most
  | _, most => most

def onSink : Limit → Sink → Sink
  | output gate, sink => sink.within gate
  | _, sink => sink

def onContext (limit : Limit) (context : Context) : Context :=
  { context with limit := limit.onDepth context.limit }

def onState (limit : Limit) : State → State := State.mapSink limit.onSink

def onWorld (limit : Limit) (world : World) : World :=
  { world with sink := limit.onSink world.sink }

def isFuel : Limit → Bool
  | fuel _ => true
  | _ => false

def blames : Limit → RuntimeError → Bool
  | depth _, .stackOverflow _ => true
  | output _, .output _ => true
  | _, _ => false

/-- An outcome by which the limit stops a run. -/
def Stops (limit : Limit) : Outcome α → Prop
  | .done _ _ => False
  | .failed failure _ => limit.blames failure.error = true
  | .exhausted => limit.isFuel = true

/-- The limit is not met, so the outcome under it is the same as without it. -/
def Spares (limit : Limit) (outcome limited : Outcome α) : Prop :=
  limited = outcome.mapState limit.onState ∧ ¬ limit.Stops limited

private theorem isLimit_of_blames {limit : Limit} {error : RuntimeError}
    (blamed : limit.blames error = true) : error.isLimit = true := by
  unfold blames at blamed
  split at blamed
  · rfl
  · rfl
  · cases blamed

private theorem not_stops_of_isUsual (limit : Limit) {outcome : Outcome α}
    (usual : outcome.IsUsual) :
    ¬ limit.Stops outcome := by
  intro stops
  cases outcome with
  | done value state => exact stops
  | exhausted => exact usual
  | failed failure state =>
      have unusual := isLimit_of_blames stops
      rw [usual] at unusual
      cases unusual

theorem spares_of_quiet (limit : Limit) {step : Step α} (quiet : Quiet step)
    (state : State) :
    limit.Spares (step state) (step (limit.onState state)) :=
  ⟨(quiet limit.onSink state).1,
    limit.not_stops_of_isUsual (quiet id (limit.onState state)).2⟩

theorem stops_forget {limit : Limit} {outcome : Outcome α} :
    limit.Stops outcome.forget ↔ limit.Stops outcome := by
  cases outcome <;> exact Iff.rfl

/-- Either the limit leaves no fuel where there was some, or one unit less than before. -/
theorem onFuel_succ (limit : Limit) (fuel : Nat) :
    limit.isFuel = true ∧ limit.onFuel (fuel + 1) = 0 ∨
      limit.onFuel (fuel + 1) = limit.onFuel fuel + 1 := by
  cases limit with
  | depth calls => exact Or.inr rfl
  | output gate => exact Or.inr rfl
  | fuel less =>
      by_cases spent : fuel + 1 ≤ less
      · exact Or.inl ⟨rfl, Nat.sub_eq_zero_of_le spent⟩
      · refine Or.inr ?_
        change fuel + 1 - less = fuel - less + 1
        omega

theorem onContext_deeper (limit : Limit) (context : Context) :
    limit.onContext context.deeper = (limit.onContext context).deeper :=
  rfl

/-- Whether a function has a body is a matter of the program, and whether it may be entered one of
the depth. -/
theorem enter_cases (program : Program) (id : FunctionId) :
    (∃ name, ∀ limit depth, enter ⟨program, limit, depth⟩ id = .error (.missingBody name)) ∨
      ∃ function body, ∀ limit depth, enter ⟨program, limit, depth⟩ id =
        if limit ≤ depth then .error (.stackOverflow limit) else .ok (function, body) := by
  unfold enter
  cases found : program.functions[id]? with
  | none =>
      refine Or.inl ⟨s!"#{id}", fun limit depth => ?_⟩
      simp only [found]
  | some function =>
      cases defined : function.body? with
      | none =>
          refine Or.inl ⟨function.name, fun limit depth => ?_⟩
          simp only [found, defined]
      | some body =>
          refine Or.inr ⟨function, body, fun limit depth => ?_⟩
          simp only [found, defined]

theorem enter_alternatives (context : Context) (id : FunctionId) :
    (∃ name, enter context id = .error (.missingBody name)) ∨
      (context.limit ≤ context.depth ∧
        enter context id = .error (.stackOverflow context.limit)) ∨
      (context.depth < context.limit ∧
        ∃ function body, enter context id = .ok (function, body)) := by
  obtain ⟨program, limit, depth⟩ := context
  rcases enter_cases program id with ⟨name, missing⟩ | ⟨function, body, entering⟩
  · exact Or.inl ⟨name, missing limit depth⟩
  · refine Or.inr ?_
    rw [entering]
    by_cases full : limit ≤ depth
    · exact Or.inl ⟨full, if_pos full⟩
    · exact Or.inr ⟨Nat.lt_of_not_le full, function, body, if_neg full⟩

/-- A function is entered under the limit as it is without, or the limit is met. -/
theorem enter_decided (limit : Limit) (context : Context) (id : FunctionId) :
    (enter (limit.onContext context) id = enter context id ∧
        ∀ error, enter context id = .error error → limit.blames error = false) ∨
      ∃ error, enter (limit.onContext context) id = .error error ∧ limit.blames error = true := by
  obtain ⟨program, most, depth⟩ := context
  rcases enter_cases program id with ⟨name, missing⟩ | ⟨function, body, entering⟩
  · refine Or.inl ⟨?_, ?_⟩
    · rw [onContext, missing, missing]
    · intro error refused
      rw [missing] at refused
      cases refused
      cases limit <;> rfl
  · cases limit with
    | fuel less => exact Or.inl ⟨rfl, fun _ _ => rfl⟩
    | output bytes =>
        refine Or.inl ⟨rfl, ?_⟩
        intro error refused
        rw [entering] at refused
        split at refused
        · cases refused
          rfl
        · cases refused
    | depth calls =>
        rw [onContext, entering, entering, onDepth]
        by_cases full : min calls most ≤ depth
        · exact Or.inr ⟨_, if_pos full, rfl⟩
        · have room : ¬ most ≤ depth := by omega
          rw [if_neg full, if_neg room]
          refine Or.inl ⟨rfl, ?_⟩
          intro error refused
          cases refused

theorem stops_leave {limit : Limit} (function : Function) (caller : Frame)
    {outcome : Outcome Flow} : limit.Stops (leave function caller outcome) ↔ limit.Stops outcome := by
  cases outcome with
  | exhausted => exact Iff.rfl
  | done flow state => cases flow <;> exact Iff.rfl
  | failed failure state =>
      change limit.blames (failure.leave function.name).error = true ↔ _
      unfold Failure.leave
      split <;> exact Iff.rfl

theorem spares_leave (limit : Limit) (function : Function) (caller : Frame)
    {outcome limited : Outcome Flow} (spares : limit.Spares outcome limited) :
    limit.Spares (leave function caller outcome) (leave function caller limited) := by
  obtain ⟨rfl, notStopped⟩ := spares
  refine ⟨?_, fun stops => notStopped ((stops_leave function caller).mp stops)⟩
  cases outcome with
  | exhausted => rfl
  | failed failure state => rfl
  | done flow state => cases flow <;> rfl

end Limit

/-! ### Points under a limit -/

namespace Point

def under (limit : Limit) : Point → Point
  | eval context fuel term state =>
      eval (limit.onContext context) (limit.onFuel fuel) term (limit.onState state)
  | evalAll context fuel terms state =>
      evalAll (limit.onContext context) (limit.onFuel fuel) terms (limit.onState state)
  | locate context fuel place state =>
      locate (limit.onContext context) (limit.onFuel fuel) place (limit.onState state)
  | call context fuel id args state =>
      call (limit.onContext context) (limit.onFuel fuel) id args (limit.onState state)
  | exec context fuel command state =>
      exec (limit.onContext context) (limit.onFuel fuel) command (limit.onState state)
  | execAll context fuel commands state =>
      execAll (limit.onContext context) (limit.onFuel fuel) commands (limit.onState state)
  | execWhile context fuel cond body step state =>
      execWhile (limit.onContext context) (limit.onFuel fuel) cond body step (limit.onState state)
  | execDo context fuel body cond state =>
      execDo (limit.onContext context) (limit.onFuel fuel) body cond (limit.onState state)

/-- How a point ends, without its result. -/
def ending : Point → Outcome Unit
  | eval context fuel term state => (Machine.eval context fuel term state).forget
  | evalAll context fuel terms state => (Machine.evalAll context fuel terms state).forget
  | locate context fuel place state => (Machine.locate context fuel place state).forget
  | call context fuel id args state => (Machine.call context fuel id args state).forget
  | exec context fuel command state => (Machine.exec context fuel command state).forget
  | execAll context fuel commands state => (Machine.execAll context fuel commands state).forget
  | execWhile context fuel cond body step state =>
      (Machine.execWhile context fuel cond body step state).forget
  | execDo context fuel body cond state => (Machine.execDo context fuel body cond state).forget

def Spared (limit : Limit) : Point → Prop
  | eval context fuel term state =>
      limit.Spares (Machine.eval context fuel term state)
        (Machine.eval (limit.onContext context) (limit.onFuel fuel) term (limit.onState state))
  | evalAll context fuel terms state =>
      limit.Spares (Machine.evalAll context fuel terms state)
        (Machine.evalAll (limit.onContext context) (limit.onFuel fuel) terms (limit.onState state))
  | locate context fuel place state =>
      limit.Spares (Machine.locate context fuel place state)
        (Machine.locate (limit.onContext context) (limit.onFuel fuel) place (limit.onState state))
  | call context fuel id args state =>
      limit.Spares (Machine.call context fuel id args state)
        (Machine.call (limit.onContext context) (limit.onFuel fuel) id args (limit.onState state))
  | exec context fuel command state =>
      limit.Spares (Machine.exec context fuel command state)
        (Machine.exec (limit.onContext context) (limit.onFuel fuel) command (limit.onState state))
  | execAll context fuel commands state =>
      limit.Spares (Machine.execAll context fuel commands state)
        (Machine.execAll (limit.onContext context) (limit.onFuel fuel) commands
          (limit.onState state))
  | execWhile context fuel cond body step state =>
      limit.Spares (Machine.execWhile context fuel cond body step state)
        (Machine.execWhile (limit.onContext context) (limit.onFuel fuel) cond body step
          (limit.onState state))
  | execDo context fuel body cond state =>
      limit.Spares (Machine.execDo context fuel body cond state)
        (Machine.execDo (limit.onContext context) (limit.onFuel fuel) body cond
          (limit.onState state))

def Stopped (limit : Limit) (point : Point) : Prop := limit.Stops (point.under limit).ending

end Point

/-- With this much fuel, the limit either is not met or stops what it is met by. -/
def Limit.DecidesAt (limit : Limit) (fuel : Nat) : Prop :=
  ∀ point : Point, point.fuel = fuel → point.Spared limit ∨ point.Stopped limit

/-- A step and the points it calls, without a limit and under it: both go the same way, or the last
call under the limit is stopped. -/
inductive Follows (limit : Limit) {α : Type} (calls : List Point) (outcome : Outcome α)
    (limitedCalls : List Point) (limited : Outcome α) : Prop where
  | spared : limitedCalls = calls.map (Point.under limit) →
      (∀ point ∈ calls, point.Spared limit) → limit.Spares outcome limited →
      Follows limit calls outcome limitedCalls limited
  | stopped (before behind : List Point) (point : Point) :
      calls = before ++ point :: behind →
      limitedCalls = before.map (Point.under limit) ++ [point.under limit] →
      (∀ other ∈ before, other.Spared limit) → point.Stopped limit →
      limited.forget = (point.under limit).ending →
      Follows limit calls outcome limitedCalls limited

namespace Follows

variable {limit : Limit} {α β : Type} {state : State}

theorem leaf {outcome limited : Outcome α} (spares : limit.Spares outcome limited) :
    Follows limit [] outcome [] limited :=
  .spared rfl (fun _ impossible => nomatch impossible) spares

theorem quiet {step : Step α} (asksNothing : Quiet step) (state : State) :
    Follows limit [] (step state) [] (step (limit.onState state)) :=
  leaf (limit.spares_of_quiet asksNothing state)

/-- A call whose outcome is that of the step. -/
theorem whole (point : Point) {outcome limited : Outcome α}
    (ends : limited.forget = (point.under limit).ending)
    (same : point.Spared limit → limit.Spares outcome limited)
    (decided : point.Spared limit ∨ point.Stopped limit) :
    Follows limit [point] outcome [point.under limit] limited := by
  rcases decided with spared | stopped
  · refine .spared rfl ?_ (same spared)
    intro other listed
    rw [List.mem_singleton.mp listed]
    exact spared
  · exact .stopped [] _ point rfl rfl (fun _ impossible => nomatch impossible) stopped ends

/-- What stands behind a call that ends well under the limit. -/
theorem cons {calls limitedCalls : List Point} {outcome limited : Outcome α} (point : Point)
    (spared : point.Spared limit) (rest : Follows limit calls outcome limitedCalls limited) :
    Follows limit (point :: calls) outcome (point.under limit :: limitedCalls) limited := by
  have both {others : List Point} (each : ∀ other ∈ others, other.Spared limit) :
      ∀ other ∈ point :: others, other.Spared limit := by
    intro other listed
    rcases List.mem_cons.mp listed with rfl | behind
    · exact spared
    · exact each other behind
  cases rest with
  | spared sameCalls each spares =>
      subst sameCalls
      exact .spared rfl (both each) spares
  | stopped before behind last splitCalls sameCalls each stopped ends =>
      subst splitCalls sameCalls
      exact .stopped (point :: before) behind last rfl rfl (both each) stopped ends

/-- A call, and others behind it if it ends well. -/
theorem bind {step limitedStep : Step α} {next limitedNext : α → Step β}
    {behind limitedBehind : α → State → List Point} (point : Point)
    (ends : (limitedStep (limit.onState state)).forget = (point.under limit).ending)
    (same : point.Spared limit → limit.Spares (step state) (limitedStep (limit.onState state)))
    (decided : point.Spared limit ∨ point.Stopped limit)
    (rest : ∀ value middle, step state = .done value middle →
      Follows limit (behind value middle) (next value middle)
        (limitedBehind value (limit.onState middle)) (limitedNext value (limit.onState middle))) :
    Follows limit ([point] ++ after (step state) behind) ((step >>= next) state)
      ([point.under limit] ++ after (limitedStep (limit.onState state)) limitedBehind)
      ((limitedStep >>= limitedNext) (limit.onState state)) := by
  change Follows limit _ (Step.bind step next state) _
    (Step.bind limitedStep limitedNext (limit.onState state))
  unfold Step.bind
  rcases decided with spared | stopped
  · obtain ⟨sameOutcome, notStopped⟩ := same spared
    refine cons point spared ?_
    rw [sameOutcome] at notStopped ⊢
    cases outcome : step state with
    | done value middle => exact rest value middle outcome
    | failed failure middle =>
        rw [outcome] at notStopped
        exact leaf ⟨rfl, notStopped⟩
    | exhausted =>
        rw [outcome] at notStopped
        exact leaf ⟨rfl, notStopped⟩
  · -- a stopped step has not ended well, so nothing stands behind it
    have halted := stopped
    unfold Point.Stopped at halted
    rw [← ends, Limit.stops_forget] at halted
    cases outcome : limitedStep (limit.onState state) with
    | done value middle =>
        rw [outcome] at halted
        exact halted.elim
    | failed failure middle =>
        rw [outcome] at ends
        exact .stopped [] _ point rfl rfl (fun _ impossible => nomatch impossible) stopped ends
    | exhausted =>
        rw [outcome] at ends
        exact .stopped [] _ point rfl rfl (fun _ impossible => nomatch impossible) stopped ends

/-- A call, and a quiet step behind it if it ends well. -/
theorem finish {step limitedStep : Step α} {next : α → Step β} (point : Point)
    (ends : (limitedStep (limit.onState state)).forget = (point.under limit).ending)
    (same : point.Spared limit → limit.Spares (step state) (limitedStep (limit.onState state)))
    (decided : point.Spared limit ∨ point.Stopped limit) (rest : ∀ value, Quiet (next value)) :
    Follows limit [point] ((step >>= next) state) [point.under limit]
      ((limitedStep >>= next) (limit.onState state)) := by
  have nothing (outcome : Outcome α) : after outcome (fun _ _ => []) = ([] : List Point) := by
    cases outcome <;> rfl
  have follows := @bind limit α β state step limitedStep next next (fun _ _ => []) (fun _ _ => [])
    point ends same decided fun value middle _ => quiet (rest value) middle
  rw [nothing, nothing] at follows
  exact follows

/-- A quiet step, and calls behind it if it ends well. -/
theorem behind {first : Step α} {next limitedNext : α → Step β}
    {behind limitedBehind : α → State → List Point} (asksNothing : Quiet first)
    (rest : ∀ value middle, Follows limit (behind value middle) (next value middle)
      (limitedBehind value (limit.onState middle)) (limitedNext value (limit.onState middle))) :
    Follows limit (after (first state) behind) ((first >>= next) state)
      (after (first (limit.onState state)) limitedBehind)
      ((first >>= limitedNext) (limit.onState state)) := by
  change Follows limit _ (Step.bind first next state) _
    (Step.bind first limitedNext (limit.onState state))
  unfold Step.bind
  obtain ⟨same, notStopped⟩ := limit.spares_of_quiet asksNothing state
  rw [same] at notStopped ⊢
  cases outcome : first state with
  | done value middle => exact rest value middle
  | failed failure middle =>
      rw [outcome] at notStopped
      exact leaf ⟨rfl, notStopped⟩
  | exhausted =>
      rw [outcome] at notStopped
      exact leaf ⟨rfl, notStopped⟩

theorem decided {calls limitedCalls : List Point}
    {outcome limited : Outcome α} (follows : Follows limit calls outcome limitedCalls limited) :
    limit.Spares outcome limited ∨ limit.Stops limited := by
  cases follows with
  | spared _ _ spares => exact Or.inl spares
  | stopped before behind point _ _ _ stopped ends =>
      refine Or.inr (Limit.stops_forget.mp ?_)
      rw [ends]
      exact stopped

end Follows

/-! ### Builtins under a limit -/

/-- A builtin deals with the sink only by offering pieces to it. -/
theorem invoke_eq (builtin : Builtin) (args : List Value) (globals locals : Frame) (heap : Heap)
    (record? : Option WorkRecord) :
    ∃ value heapAfter recordAfter?, ∀ sink,
      invoke builtin args ⟨globals, locals, ⟨heap, sink, record?⟩⟩ =
        match sink.offer (builtin.pieces args heap) with
        | (sink, none) => .done value ⟨globals, locals, ⟨heapAfter, sink, recordAfter?⟩⟩
        | (sink, some reason) =>
            .failed ⟨.output reason, []⟩ ⟨globals, locals, ⟨heap, sink, record?⟩⟩ := by
  obtain ⟨value, heapAfter, recordAfter?, same⟩ := builtin.invoke_offers args heap record?
  refine ⟨value, heapAfter, recordAfter?, ?_⟩
  intro sink
  unfold invoke
  simp only [same sink]
  generalize sink.offer (builtin.pieces args heap) = answer
  obtain ⟨written, reason?⟩ := answer
  cases reason? <;> rfl

private theorem Limit.spares_self {α : Type} {limit : Limit} (same : limit.onState = id)
    {outcome : Outcome α} (notStopped : ¬ limit.Stops outcome) : limit.Spares outcome outcome := by
  refine ⟨?_, notStopped⟩
  rw [same]
  cases outcome <;> rfl

theorem invoke_decided (limit : Limit) (builtin : Builtin) (args : List Value) (state : State) :
    limit.Spares (invoke builtin args state) (invoke builtin args (limit.onState state)) ∨
      limit.Stops (invoke builtin args (limit.onState state)) := by
  have unchanged (same : limit.onState = id) :
      limit.Spares (invoke builtin args state) (invoke builtin args (limit.onState state)) ∨
        limit.Stops (invoke builtin args (limit.onState state)) := by
    rw [same]
    by_cases stops : limit.Stops (invoke builtin args state)
    · exact Or.inr stops
    · exact Or.inl (Limit.spares_self same stops)
  cases limit with
  | fuel less => exact unchanged rfl
  | depth calls => exact unchanged rfl
  | output gate =>
      obtain ⟨globals, locals, heap, sink, record?⟩ := state
      obtain ⟨value, heapAfter, recordAfter?, same⟩ :=
        invoke_eq builtin args globals locals heap record?
      change Limit.Spares (.output gate) _
          (invoke builtin args ⟨globals, locals, ⟨heap, sink.within gate, record?⟩⟩) ∨
        Limit.Stops (.output gate)
          (invoke builtin args ⟨globals, locals, ⟨heap, sink.within gate, record?⟩⟩)
      rw [same, same]
      rcases sink.offer_within gate (builtin.pieces args heap) with
        ⟨last, limited, free⟩ | ⟨last, reason, refused⟩
      · simp only [limited, free]
        exact Or.inl ⟨rfl, id⟩
      · simp only [refused]
        exact Or.inr rfl

end Machine
end MiniC
