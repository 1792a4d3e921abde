import MiniC.Compile
import MiniC.Proofs.Machine.Commands
import MiniC.Proofs.Machine.Fuel
import MiniC.Proofs.Machine.Output
import MiniC.Proofs.Typing.Conversion

/-!
The limit on nested calls.

A run under a larger limit is the same run, unless the smaller limit made it
overflow. Then it stopped with just as many active calls as the limit allows, and
the larger limit takes the run on from there.
-/

namespace MiniC

namespace Failure

theorem leave_take (error : RuntimeError) (names : List String) (name : String) :
    leave ⟨error, names.take maxTrace⟩ name = ⟨error, (names ++ [name]).take maxTrace⟩ := by
  unfold leave
  rw [List.length_take, List.take_append]
  by_cases room : names.length < maxTrace
  · rw [if_pos (by omega), List.take_of_length_le (by omega : names.length ≤ maxTrace),
      List.take_of_length_le (by rw [List.length_singleton]; omega)]
  · rw [if_neg (by omega), Nat.sub_eq_zero_of_le (Nat.le_of_not_lt room), List.take_zero,
      List.append_nil]

end Failure

namespace Machine

theorem mem_next_of_mem_after {α : Type} {outcome : Outcome α} {next : α → State → List Point}
    {point : Point} (listed : point ∈ after outcome next) :
    ∃ value state, point ∈ next value state := by
  cases outcome with
  | done value state => exact ⟨value, state, listed⟩
  | failed failure state => cases listed
  | exhausted => cases listed

namespace Point

variable {context : Context} {fuel : Nat} {state : State} {point next reached : Point}
  {names : List String}

private theorem context_of_mem_nodeCalls {node : Node}
    (called : next ∈ nodeCalls context fuel node state) : next.context = context := by
  cases node <;> simp only [nodeCalls] at called <;> grind [→ mem_next_of_mem_after, Point.context]

private theorem context_of_mem_commandCalls {command : Command}
    (called : next ∈ commandCalls context fuel command state) : next.context = context := by
  fun_cases commandCalls context fuel command state <;>
    grind [→ mem_next_of_mem_after, Point.context, commandCalls]

private theorem context_of_mem_againCalls {cond : Term} {body : Command} {step : Option Term}
    (called : next ∈ againCalls context fuel cond body step state) : next.context = context := by
  cases step <;> simp only [againCalls] at called <;>
    grind [→ mem_next_of_mem_after, Point.context]

/-- Only the body of a function has another context than the point that calls it. -/
theorem context_of_mem_calls (other : point.isCall = false) (called : next ∈ point.calls) :
    next.context = point.context := by
  fun_cases calls point <;> simp only [calls] at called <;>
    grind [→ mem_next_of_mem_after, → context_of_mem_nodeCalls, → context_of_mem_commandCalls,
      → context_of_mem_againCalls, Point.context, Point.isCall]

/-- On the way from the first point to the second the named functions have been entered, one inside
the other, and none of them has been left. The innermost comes first. -/
inductive Beneath : Point → List String → Point → Prop where
  | here (point : Point) : Beneath point [] point
  | inner {point next reached : Point} {names : List String} : point.isCall = false →
      next ∈ point.calls → Beneath next names reached → Beneath point names reached
  | enters {context : Context} {fuel : Nat} {id : FunctionId} {args : List Value} {state : State}
      {function : Function} {body : Command} {reached : Point} {names : List String} :
      enter context id = .ok (function, body) →
      Beneath (exec context.deeper fuel body (state.entered function args)) names reached →
      Beneath (call context (fuel + 1) id args state) (names ++ [function.name]) reached

theorem Beneath.within (beneath : point.Beneath names reached) : point.Within reached := by
  induction beneath with
  | here point => exact .here point
  | inner _ called _ ih => exact .deeper called ih
  | enters entered _ ih =>
      refine .deeper ?_ ih
      rw [calls_of_enter entered]
      exact List.mem_cons_self

theorem Beneath.limit_eq (beneath : point.Beneath names reached) :
    reached.context.limit = point.context.limit := by
  induction beneath with
  | here point => rfl
  | inner other called _ ih => rw [ih, context_of_mem_calls other called]
  | enters _ _ ih => exact ih

theorem Beneath.depth_eq (beneath : point.Beneath names reached) :
    reached.context.depth = point.context.depth + names.length := by
  induction beneath with
  | here point => rfl
  | inner other called _ ih => rw [ih, context_of_mem_calls other called]
  | @enters context fuel id args state function body reached names _ _ ih =>
      rw [ih, List.length_append, List.length_singleton]
      change context.depth + 1 + names.length = context.depth + (names.length + 1)
      omega

theorem Beneath.depth_le (beneath : point.Beneath names reached)
    (allowed : point.context.depth ≤ point.context.limit) :
    reached.context.depth ≤ reached.context.limit := by
  induction beneath with
  | here point => exact allowed
  | inner other called _ ih =>
      rw [← context_of_mem_calls other called] at allowed
      exact ih allowed
  | @enters context fuel id _ _ _ _ _ _ entered _ ih =>
      rcases Limit.enter_alternatives context id with ⟨_, missing⟩ | ⟨_, refused⟩ | ⟨room, _⟩
      · rw [entered] at missing
        cases missing
      · rw [entered] at refused
        cases refused
      · exact ih room

def Overflows : Point → Prop
  | call context (_ + 1) id _ _ => enter context id = .error (.stackOverflow context.limit)
  | _ => False

theorem Overflows.limit_le (overflows : point.Overflows) :
    point.context.limit ≤ point.context.depth := by
  unfold Overflows at overflows
  split at overflows
  · rename_i context _ id _ _
    rcases Limit.enter_alternatives context id with ⟨_, missing⟩ | ⟨full, _⟩ | ⟨_, _, _, entered⟩
    · rw [overflows] at missing
      cases missing
    · exact full
    · rw [overflows] at entered
      cases entered
  · cases overflows

private theorem not_refused_by_depth (calls : Nat) : ¬ point.Refused (.depth calls) := by
  unfold Refused
  split
  · rename_i builtin _ _
    rintro ⟨values, between, _, stops⟩
    obtain ⟨globals, locals, heap, sink, record?⟩ := between
    obtain ⟨value, heapAfter, recordAfter?, same⟩ :=
      invoke_eq builtin values globals locals heap record?
    change Limit.Stops _ (invoke builtin values ⟨globals, locals, ⟨heap, sink, record?⟩⟩) at stops
    rw [same] at stops
    split at stops
    · exact stops
    · cases stops
  · exact id

private theorem stackOverflow_of_blames {calls : Nat} {id : FunctionId} {error : RuntimeError}
    (refused : enter context id = .error error)
    (blamed : (Limit.depth calls).blames error = true) :
    error = .stackOverflow context.limit := by
  rcases Limit.enter_alternatives context id with ⟨_, missing⟩ | ⟨_, overflows⟩ | ⟨_, _, _, entered⟩
  · rw [refused] at missing
    cases missing
    cases blamed
  · rw [refused] at overflows
    cases overflows
    rfl
  · rw [refused] at entered
    cases entered

/-- A point that the limit on calls stops leads to a call that overflows, and fails as that does. -/
theorem overflow_of_stopped {calls : Nat} (stopped : point.Stopped (.depth calls)) :
    ∃ names reached last, (point.under (.depth calls)).Beneath names reached ∧
      reached.Overflows ∧ last.world = reached.state.world ∧
      (point.under (.depth calls)).ending =
        .failed ⟨.stackOverflow reached.context.limit, names.take Failure.maxTrace⟩ last := by
  induction bound : point.fuel using Nat.strongRecOn generalizing point with
  | ind fuel ih =>
      cases course (.depth calls) point with
      | spared _ _ spared => exact absurd stopped (not_stopped_of_spared spared)
      | refused refused _ _ _ => exact absurd refused (not_refused_by_depth calls)
      | exhausted isFuel _ => cases isFuel
      | overflows context fuel id args state error same left refused blamed =>
          subst same
          obtain rfl := stackOverflow_of_blames refused blamed
          refine ⟨[], _, state, .here _, refused, rfl, ?_⟩
          rw [under, ending]
          change Outcome.forget (Machine.call _ (fuel + 1) _ _ _) = _
          rw [Machine.call, refused]
          rfl
      | inner before behind last other splitCalls sameCalls _ lastStopped same =>
          have called : last ∈ point.calls := by
            rw [splitCalls]
            exact List.mem_append_right _ List.mem_cons_self
          have less := smaller called
          rw [bound] at less
          obtain ⟨names, reached, state, beneath, overflows, sameWorld, ends⟩ :=
            ih last.fuel less lastStopped rfl
          refine ⟨names, reached, state, .inner ?_ ?_ beneath, overflows, sameWorld,
            same.trans ends⟩
          · cases point with
            | call => cases other
            | _ => rfl
          · rw [sameCalls]
            exact List.mem_append_right _ List.mem_cons_self
      | enters context amount id args state function body same left _ entered bodyStopped =>
          subst same
          have less := Nat.lt_of_lt_of_eq (Nat.lt_succ_self amount) bound
          obtain ⟨names, reached, last, beneath, overflows, sameWorld, ends⟩ :=
            ih amount less bodyStopped rfl
          refine ⟨_, reached, { last with locals := state.locals }, .enters entered beneath,
            overflows, sameWorld, ?_⟩
          rw [← Failure.leave_take]
          exact ending_of_body_failed entered ends

end Point

/-! ### Runs -/

variable {fuel limit larger : Nat} {program : Program} {entry : FunctionId} {world : World}

private theorem context_of_mem_initPoints {context : Context} {commands : List Command}
    {state : State}
    {point : Point} (listed : point ∈ initPoints context fuel commands state) :
    point.context = context := by
  induction commands generalizing state with
  | nil => cases listed
  | cons first rest ih =>
      rcases List.mem_append.mp listed with here | behind
      · rw [List.mem_singleton.mp here]
        rfl
      · obtain ⟨_, _, later⟩ := mem_next_of_mem_after behind
        exact ih later

theorem context_of_mem_runPoints {point : Point}
    (listed : point ∈ runPoints fuel program entry limit world) :
    point.context = ⟨program, limit, 0⟩ := by
  rcases List.mem_append.mp listed with inInit | entered
  · exact context_of_mem_initPoints inInit
  · obtain ⟨_, _, here⟩ := mem_next_of_mem_after entered
    rw [List.mem_singleton.mp here]
    rfl

/-- The number of calls that was too many, if a run has failed for that. -/
def Ending.overflow? : Ending → Option Nat
  | .failed ⟨.stackOverflow calls, _⟩ _ => some calls
  | _ => none

/-- A call of the run overflows while the named functions are active. -/
def OverflowsIn (fuel : Nat) (program : Program) (entry : FunctionId) (limit : Nat)
    (world : World) (active : List String) (point : Point) : Prop :=
  ∃ first ∈ runPoints fuel program entry limit world, first.Beneath active point ∧ point.Overflows

theorem OverflowsIn.length_eq {active : List String} {point : Point}
    (overflows : OverflowsIn fuel program entry limit world active point) :
    active.length = limit ∧ point.context.limit = limit := by
  obtain ⟨first, listed, beneath, refused⟩ := overflows
  have start := context_of_mem_runPoints listed
  have sameLimit := beneath.limit_eq
  have sameDepth := beneath.depth_eq
  have most := beneath.depth_le (by rw [start]; exact Nat.zero_le limit)
  have least := refused.limit_le
  rw [start] at sameLimit sameDepth
  simp only at sameLimit sameDepth
  omega

theorem run_raised (fuel : Nat) (program : Program) (entry : FunctionId) (world : World)
    (raised : limit ≤ larger) :
    runWith fuel program entry larger world = runWith fuel program entry limit world ∧
        (runWith fuel program entry limit world).overflow? = none ∨
      ∃ active point origin, OverflowsIn fuel program entry limit world active point ∧
        runWith fuel program entry limit world =
          .failed ⟨.stackOverflow limit, active.take Failure.maxTrace⟩ point.state.world ∧
        Visits fuel program entry larger world origin ∧
        origin.state.world = point.state.world := by
  have follows := run_follows (.depth limit) fuel program entry larger world
  change Follows (.depth limit) _ _ (runPoints fuel program entry (min limit larger) world)
    (runOutcome fuel program entry (min limit larger) world) at follows
  rw [Nat.min_eq_left raised] at follows
  cases follows with
  | spared _ _ spares =>
      refine Or.inl ?_
      obtain ⟨same, notStopped⟩ := spares
      rw [runWith_eq, runWith_eq]
      rw [same] at notStopped ⊢
      generalize runOutcome fuel program entry larger world = outcome at *
      cases outcome with
      | done value state => exact ⟨rfl, rfl⟩
      | exhausted => exact ⟨rfl, rfl⟩
      | failed failure state =>
          refine ⟨rfl, ?_⟩
          obtain ⟨error, trace⟩ := failure
          cases error with
          | stackOverflow calls => exact absurd rfl notStopped
          | _ => rfl
  | stopped before behind point splitCalls sameCalls _ stopped ends =>
      refine Or.inr ?_
      obtain ⟨active, reached, last, beneath, overflows, sameWorld, failed⟩ :=
        Point.overflow_of_stopped stopped
      have listed : point.under (.depth limit) ∈ runPoints fuel program entry limit world := by
        rw [sameCalls]
        exact List.mem_append_right _ List.mem_cons_self
      have overflowsIn : OverflowsIn fuel program entry limit world active reached :=
        ⟨_, listed, beneath, overflows⟩
      obtain ⟨origin, within, sameOrigin⟩ := beneath.within.free
      refine ⟨active, reached, origin, overflowsIn, ?_, ⟨point, ?_, within⟩, ?_⟩
      · rw [failed, overflowsIn.length_eq.2] at ends
        rw [runWith_eq, ← sameWorld]
        generalize runOutcome fuel program entry limit world = outcome at *
        cases outcome with
        | done value state => cases ends
        | exhausted => cases ends
        | failed failure state =>
            cases ends
            rfl
      · rw [splitCalls]
        exact List.mem_append_right _ List.mem_cons_self
      · rw [← sameOrigin]
        cases origin <;> rfl

end Machine

open Lowering Machine

/-- A larger limit on nested calls changes nothing for a run that has not overflowed. A run that has
overflowed did so with just as many active calls as the limit says; under the larger limit the run
comes to the same world, so that whatever it has written in the end starts with what was written
at the overflow. -/
theorem larger_call_limit (fuel : Nat) (program : Program) (entry : FunctionId) (world : World)
    {limit larger : Nat} (raised : limit ≤ larger) :
    ((runWith fuel program entry limit world).overflow? = none →
      runWith fuel program entry larger world = runWith fuel program entry limit world) ∧
    ∀ calls, (runWith fuel program entry limit world).overflow? = some calls →
      calls = limit ∧
      ∃ active point last, OverflowsIn fuel program entry limit world active point ∧
        active.length = limit ∧ point.state.world = last ∧
        runWith fuel program entry limit world =
          .failed ⟨.stackOverflow limit, active.take Failure.maxTrace⟩ last ∧
        (∃ origin, Visits fuel program entry larger world origin ∧ origin.state.world = last) ∧
        ∀ more final, (runWith more program entry larger world).world? = some final →
          ∃ rest, final.sink.written = last.sink.written ++ rest := by
  rcases run_raised fuel program entry world raised with
    ⟨same, none⟩ | ⟨active, point, origin, overflows, failed, visited, sameWorld⟩
  · refine ⟨fun _ => same, ?_⟩
    intro calls overflowed
    rw [none] at overflowed
    cases overflowed
  · constructor
    · intro none
      rw [failed] at none
      cases none
    · intro calls overflowed
      have sameCalls : calls = limit := by
        rw [failed] at overflowed
        cases overflowed
        rfl
      refine ⟨sameCalls, active, point, _, overflows, overflows.length_eq.1, rfl, failed,
        ⟨origin, visited, sameWorld⟩, ?_⟩
      intro more final ended
      -- with enough fuel for both runs, both are as they were
      have low := runWith_of_more (Nat.le_max_left fuel more) (congrArg Ending.world? failed)
      have high := runWith_of_more (Nat.le_max_right fuel more) ended
      rw [← high] at ended
      rcases run_raised (max fuel more) program entry world raised with
        ⟨_, none⟩ | ⟨_, _, further, _, again, visitedAgain, sameAgain⟩
      · rw [low, failed] at none
        cases none
      · rw [low, failed] at again
        obtain ⟨rest, written⟩ := visitedAgain.written ended
        rw [sameAgain, ← (Ending.failed.inj again).2] at written
        exact ⟨rest, written⟩

/-- A source whose `main` calls a function that writes a line and calls itself three times. -/
def descendingSource : List Item :=
  let place : Span := ⟨0, 0⟩
  let number (value : UInt64) : Expr := .int place ⟨value, false, false, false⟩
  let n : Expr := .ident place "n"
  [.function ⟨.int, "descend", [⟨.int, "n", false, place⟩], some
      [.expr place (.call place "puts" place [.str place "down"]),
        .ret place (some (.conditional place n
          (.call place "descend" place [.binary place .sub n (number 1)]) (number 0)))],
      place⟩,
    .function ⟨.int, "main", [], some
      [.ret place (some (.call place "descend" place [number 3]))], place⟩]

theorem descending_overflows : ∃ (program : Program) (active : List String) (last final : World),
    lower descendingSource = .ok program ∧
      runWith 40 program 1 3 ⟨.empty, .unlimited, none⟩ =
        .failed ⟨.stackOverflow 3, active.take Failure.maxTrace⟩ last ∧
      active.length = 3 ∧
      (runWith 40 program 1 5 ⟨.empty, .unlimited, none⟩).world? = some final ∧
      ∃ rest, final.sink.written = last.sink.written ++ rest := by
  have checked : ((lower descendingSource).toOption.any fun program =>
      (runWith 40 program 1 3 ⟨.empty, .unlimited, none⟩).overflow? == some 3 &&
        (runWith 40 program 1 5 ⟨.empty, .unlimited, none⟩).world?.isSome) = true := by
    decide +kernel
  obtain ⟨program, accepted, holds⟩ := eq_ok_of_any checked
  obtain ⟨overflowed, finished⟩ := Bool.and_eq_true_iff.mp holds
  obtain ⟨final, ended⟩ := Option.isSome_iff_exists.mp finished
  obtain ⟨_, active, _, last, _, length, _, failed, _, further⟩ :=
    (larger_call_limit 40 program 1 ⟨.empty, .unlimited, none⟩ (by omega : 3 ≤ 5)).2 3
      (beq_iff_eq.mp overflowed)
  exact ⟨program, active, last, final, accepted, failed, length, ended, further 40 final ended⟩

end MiniC
