import MiniC.Proofs.CallDepth
import MiniC.Proofs.Machine.Endings

/-!
Traces of failures.

The machine keeps no list of the active functions: a failure gathers their names
while it leaves them. What it gathers is the list of the functions whose bodies
were active when the error was raised, the innermost first, as far as a trace
goes.
-/

namespace MiniC

namespace Machine

namespace Point

variable {point next reached other : Point} {names others : List String} {error : RuntimeError}
  {last : State}

theorem Raises.ending (raises : point.Raises error last) :
    point.ending = .failed ⟨error, []⟩ last := by
  cases raises with
  | load found failed =>
      rw [Point.ending, Machine.eval, bind_of_done found, failed]
      rfl
  | update found failed =>
      rw [Point.ending, Machine.eval, bind_of_done found, bind_of_failed failed]
      rfl
  | builtin evaluated failed =>
      rw [Point.ending, Machine.eval, bind_of_done evaluated, failed]
      rfl
  | element evaluated failed =>
      rw [Point.ending, Machine.locate, bind_of_done evaluated, failed]
      rfl
  | field failed =>
      rw [Point.ending, Machine.locate, failed]
      rfl
  | newArray evaluated failed =>
      rw [Point.ending, Machine.exec, bind_of_done evaluated, bind_of_failed failed]
      rfl
  | refused entered =>
      rw [Point.ending, Machine.call, entered]
      rfl

section EndsWell

variable {context : Context} {fuel : Nat} {state middle : State}

private theorem endsWell_of_eval {term : Term} {value : Value}
    (done : Machine.eval context fuel term state = .done value middle) :
    (eval context fuel term state).EndsWell := by
  refine ⟨middle, ?_⟩
  rw [Point.ending, done]
  rfl

private theorem endsWell_of_evalAll {terms : List Term} {values : List Value}
    (done : Machine.evalAll context fuel terms state = .done values middle) :
    (evalAll context fuel terms state).EndsWell := by
  refine ⟨middle, ?_⟩
  rw [Point.ending, done]
  rfl

private theorem endsWell_of_locate {place : Place} {location : Location}
    (done : Machine.locate context fuel place state = .done location middle) :
    (locate context fuel place state).EndsWell := by
  refine ⟨middle, ?_⟩
  rw [Point.ending, done]
  rfl

end EndsWell

private theorem Raises.calls_endWell (raises : point.Raises error last)
    (called : next ∈ point.calls) :
    next.EndsWell := by
  cases raises with
  | load found _ =>
      obtain rfl := List.mem_singleton.mp called
      exact endsWell_of_locate found
  | update found failed =>
      simp only [calls, nodeCalls, found, failed, after, List.append_nil] at called
      obtain rfl := List.mem_singleton.mp called
      exact endsWell_of_locate found
  | builtin evaluated _ =>
      obtain rfl := List.mem_singleton.mp called
      exact endsWell_of_evalAll evaluated
  | element evaluated _ =>
      obtain rfl := List.mem_singleton.mp called
      exact endsWell_of_eval evaluated
  | field _ => cases called
  | newArray evaluated _ =>
      obtain rfl := List.mem_singleton.mp called
      exact endsWell_of_eval evaluated
  | refused entered =>
      rw [calls, entered] at called
      cases called

/-- A point that fails leads to the point that raises the error, and the trace names the functions
that are active there. -/
theorem raised_of_failed {failure : Failure} (failed : point.ending = .failed failure last) :
    ∃ names reached state, point.Beneath names reached ∧ reached.Raises failure.error state ∧
      failure.trace = names.take Failure.maxTrace ∧ last.world = state.world := by
  induction bound : point.fuel using Nat.strongRecOn generalizing point failure last with
  | ind fuel ih =>
      by_cases spent : point.fuel = 0
      · rw [ending_of_spent spent] at failed
        cases failed
      cases isCall : point.isCall with
      | false =>
          cases concludes isCall spent with
          | well other _ done =>
              rw [done] at failed
              cases failed
          | raised error other _ raises same =>
              rw [same] at failed
              cases failed
              exact ⟨[], point, last, .here point, raises, rfl, rfl⟩
          | broken before next split _ _ same =>
              have called : next ∈ point.calls := by
                rw [split]
                exact List.mem_append_right _ List.mem_cons_self
              have less := smaller called
              rw [bound] at less
              obtain ⟨names, reached, state, beneath, raises, trace, sameWorld⟩ :=
                ih next.fuel less (same.symm.trans failed) rfl
              exact ⟨names, reached, state, .inner isCall called beneath, raises, trace, sameWorld⟩
      | true =>
          cases point with
          | call context amount id args start =>
              obtain ⟨amount, rfl⟩ := Nat.exists_eq_succ_of_ne_zero spent
              cases entered : enter context id with
              | error error =>
                  have raises : (call context (amount + 1) id args start).Raises error start :=
                    .refused entered
                  rw [raises.ending] at failed
                  cases failed
                  exact ⟨[], _, _, .here _, raises, rfl, rfl⟩
              | ok found =>
                  obtain ⟨function, body⟩ := found
                  have less := Nat.lt_of_lt_of_eq (Nat.lt_succ_self amount) bound
                  rcases @call_ending context amount start id args function body entered with
                    ⟨_, well⟩ | ⟨inner, innerLast, bodyFailed, callFailed⟩ | ⟨_, exhausted⟩
                  · exact absurd failed well.not_failed
                  · rw [callFailed] at failed
                    cases failed
                    obtain ⟨names, reached, state, beneath, raises, trace, sameWorld⟩ :=
                      ih amount less bodyFailed rfl
                    have left : inner.leave function.name =
                        ⟨inner.error, (names ++ [function.name]).take Failure.maxTrace⟩ := by
                      rw [← Failure.leave_take, ← trace]
                    refine ⟨_, reached, state, .enters entered beneath, ?_, ?_, sameWorld⟩
                    · rw [left]
                      exact raises
                    · rw [left]
                  · rw [exhausted] at failed
                    cases failed
          | _ => cases isCall

/-- Wherever an error is raised, all that has led there fails, and so do the functions that are
active. -/
theorem Beneath.failed (beneath : point.Beneath names reached)
    (raises : reached.Raises error last) :
    ∃ final, point.ending = .failed ⟨error, names.take Failure.maxTrace⟩ final ∧
      final.world = last.world := by
  induction beneath with
  | here point => exact ⟨last, raises.ending, rfl⟩
  | inner isOther called _ ih =>
      obtain ⟨final, failed, sameWorld⟩ := ih raises
      have broken := (concludes isOther (fuel_ne_zero_of_calls called)).of_broken called
        fun well => well.not_failed failed
      exact ⟨final, broken.1.trans failed, sameWorld⟩
  | enters entered _ ih =>
      obtain ⟨final, failed, sameWorld⟩ := ih raises
      have left := ending_of_body_failed entered failed
      rw [Failure.leave_take] at left
      exact ⟨_, left, sameWorld⟩

theorem Beneath.not_endsWell (beneath : point.Beneath names reached)
    (raises : reached.Raises error last) : ¬ point.EndsWell := by
  obtain ⟨final, failed, _⟩ := beneath.failed raises
  exact fun well => well.not_failed failed

/-- Behind a point that fails there is just one that raises an error. -/
theorem Beneath.unique (beneath : point.Beneath names reached) (raises : reached.Raises error last)
    {otherError : RuntimeError} {otherLast : State} (otherBeneath : point.Beneath others other)
    (otherRaises : other.Raises otherError otherLast) : names = others ∧ reached = other := by
  induction beneath generalizing others with
  | here point =>
      cases otherBeneath with
      | here => exact ⟨rfl, rfl⟩
      | inner _ called inside =>
          exact absurd (raises.calls_endWell called) (inside.not_endsWell otherRaises)
      | enters entered inside =>
          cases raises with
          | refused refused => cases entered.symm.trans refused
  | inner isOther called inside ih =>
      cases otherBeneath with
      | here =>
          exact absurd (otherRaises.calls_endWell called) (inside.not_endsWell raises)
      | inner _ otherCalled otherInside =>
          have broken := (concludes isOther (fuel_ne_zero_of_calls called)).of_broken called
            (inside.not_endsWell raises)
          obtain rfl := broken.2 _ otherCalled (otherInside.not_endsWell otherRaises)
          exact ih raises otherInside
      | enters _ _ => cases isOther
  | enters entered inside ih =>
      cases otherBeneath with
      | here =>
          cases otherRaises with
          | refused refused => cases entered.symm.trans refused
      | inner isOther _ _ => cases isOther
      | enters otherEntered otherInside =>
          rw [entered] at otherEntered
          cases otherEntered
          obtain ⟨rfl, rfl⟩ := ih raises otherInside
          exact ⟨rfl, rfl⟩

/-- A call of a function is made by a term, and the same functions are active there. -/
theorem Beneath.caller (beneath : point.Beneath names reached) (isCall : reached.isCall = true) :
    reached = point ∧ names = [] ∨
      ∃ caller, caller.isCall = false ∧ reached ∈ caller.calls ∧ point.Beneath names caller := by
  induction beneath with
  | here point => exact Or.inl ⟨rfl, rfl⟩
  | inner isOther called _ ih =>
      refine Or.inr ?_
      rcases ih isCall with ⟨rfl, rfl⟩ | ⟨caller, notCall, calls, beneath⟩
      · exact ⟨_, isOther, called, .here _⟩
      · exact ⟨caller, notCall, calls, .inner isOther called beneath⟩
  | enters entered _ ih =>
      refine Or.inr ?_
      rcases ih isCall with ⟨rfl, _⟩ | ⟨caller, notCall, calls, beneath⟩
      · cases isCall
      · exact ⟨caller, notCall, calls, .enters entered beneath⟩

end Point

/-! ### Runs -/

section Runs

variable (fuel : Nat) (program : Program) (entry : FunctionId) (limit : Nat) (world : World)

/-- The run comes to a point while just the bodies of the named functions are active, the innermost
first. -/
def ActiveAt (active : List String) (point : Point) : Prop :=
  ∃ first ∈ runPoints fuel program entry limit world, first.Beneath active point

/-- In the run a point raises an error while just the bodies of the named functions are active. -/
def RaisedAt (active : List String) (point : Point) (error : RuntimeError) (last : World) : Prop :=
  ActiveAt fuel program entry limit world active point ∧
    ∃ state, point.Raises error state ∧ state.world = last

end Runs

variable {fuel limit : Nat} {program : Program} {entry : FunctionId} {world last : World}
  {active others : List String} {point other : Point} {error : RuntimeError}

theorem runWith_eq_failed_iff {failure : Failure} :
    runWith fuel program entry limit world = .failed failure last ↔
      ∃ final, (runOutcome fuel program entry limit world).forget = .failed failure final ∧
        final.world = last := by
  rw [runWith_eq]
  cases runOutcome fuel program entry limit world with
  | done value state =>
      constructor
      · intro impossible
        cases impossible
      · rintro ⟨final, impossible, _⟩
        cases impossible
  | exhausted =>
      constructor
      · intro impossible
        cases impossible
      · rintro ⟨final, impossible, _⟩
        cases impossible
  | failed failure state =>
      constructor
      · intro same
        cases same
        exact ⟨state, rfl, rfl⟩
      · rintro ⟨final, same, rfl⟩
        cases same
        rfl

def Ending.failure? : Ending → Option Failure
  | .failed failure _ => some failure
  | _ => none

theorem Ending.eq_failed {ending : Ending} {failure : Failure}
    (failed : ending.failure? = some failure) : ∃ last, ending = .failed failure last := by
  cases ending with
  | failed other last =>
      cases failed
      exact ⟨last, rfl⟩
  | _ => cases failed

theorem RaisedAt.failed (raised : RaisedAt fuel program entry limit world active point error last) :
    runWith fuel program entry limit world =
      .failed ⟨error, active.take Failure.maxTrace⟩ last := by
  obtain ⟨⟨first, listed, beneath⟩, state, raises, rfl⟩ := raised
  obtain ⟨final, failed, sameWorld⟩ := beneath.failed raises
  have broken := (run_concludes fuel program entry limit world).of_broken listed
    (beneath.not_endsWell raises)
  exact runWith_eq_failed_iff.mpr ⟨final, broken.1.trans failed, sameWorld⟩

theorem raisedAt_of_failed {failure : Failure}
    (failed : runWith fuel program entry limit world = .failed failure last) :
    ∃ active point, RaisedAt fuel program entry limit world active point failure.error last ∧
      failure.trace = active.take Failure.maxTrace := by
  obtain ⟨final, ended, rfl⟩ := runWith_eq_failed_iff.mp failed
  cases run_concludes fuel program entry limit world with
  | well other _ done =>
      rw [done] at ended
      cases ended
  | raised error other _ impossible _ => exact impossible.elim
  | broken before first split _ _ same =>
      obtain ⟨active, point, state, beneath, raises, trace, sameWorld⟩ :=
        Point.raised_of_failed (same.symm.trans ended)
      have listed : first ∈ runPoints fuel program entry limit world := by
        rw [split]
        exact List.mem_append_right _ List.mem_cons_self
      exact ⟨active, point, ⟨⟨first, listed, beneath⟩, state, raises, sameWorld.symm⟩, trace⟩

theorem RaisedAt.unique (raised : RaisedAt fuel program entry limit world active point error last)
    {otherError : RuntimeError} {otherLast : World}
    (again : RaisedAt fuel program entry limit world others other otherError otherLast) :
    others = active ∧ other = point := by
  obtain ⟨⟨first, listed, beneath⟩, _, raises, _⟩ := raised
  obtain ⟨⟨second, otherListed, otherBeneath⟩, _, otherRaises, _⟩ := again
  have broken := (run_concludes fuel program entry limit world).of_broken listed
    (beneath.not_endsWell raises)
  obtain rfl := broken.2 second otherListed (otherBeneath.not_endsWell otherRaises)
  exact otherBeneath.unique otherRaises beneath raises

theorem ActiveAt.length_eq (reached : ActiveAt fuel program entry limit world active point) :
    active.length = point.context.depth := by
  obtain ⟨first, listed, beneath⟩ := reached
  have start := context_of_mem_runPoints listed
  rw [beneath.depth_eq, start, Nat.zero_add]

theorem ActiveAt.caller (reached : ActiveAt fuel program entry limit world active point)
    (isCall : point.isCall = true) :
    point ∈ runPoints fuel program entry limit world ∧ active = [] ∨
      ∃ caller, caller.isCall = false ∧ point ∈ caller.calls ∧
        ActiveAt fuel program entry limit world active caller := by
  obtain ⟨first, listed, beneath⟩ := reached
  rcases beneath.caller isCall with ⟨rfl, none⟩ | ⟨caller, notCall, called, above⟩
  · exact Or.inl ⟨listed, none⟩
  · exact Or.inr ⟨caller, notCall, called, first, listed, above⟩

end Machine

open Lowering Machine

/-- A run fails just if some point of it raises an error, and the trace names the functions whose
bodies were active at that point, the innermost first, as far as the first thirty-two. There is one
such point, and as many functions are active there as the machine counts. A function that may not be
entered is not among them: the same functions were active where the call was made. None was active
where an initialisation raised the error without a call. -/
theorem failure_trace_is_call_stack (fuel : Nat) (program : Program) (entry : FunctionId)
    (limit : Nat) (world : World) :
    (∀ failure last, runWith fuel program entry limit world = .failed failure last ↔
      ∃ active point, RaisedAt fuel program entry limit world active point failure.error last ∧
        failure.trace = active.take 32) ∧
    (∀ active point error last, RaisedAt fuel program entry limit world active point error last →
      active.length = point.context.depth ∧
      (∀ others other otherError otherLast,
        RaisedAt fuel program entry limit world others other otherError otherLast →
          others = active ∧ other = point) ∧
      (point.isCall = true →
        point ∈ runPoints fuel program entry limit world ∧ active = [] ∨
          ∃ caller, caller.isCall = false ∧ point ∈ caller.calls ∧
            ActiveAt fuel program entry limit world active caller)) ∧
    ∀ first ∈ initPoints ⟨program, limit, 0⟩ fuel program.init (.initial program world),
      ∀ point error state, first.Beneath [] point → point.Raises error state →
        runWith fuel program entry limit world = .failed ⟨error, []⟩ state.world := by
  refine ⟨?_, ?_, ?_⟩
  · intro failure last
    constructor
    · exact raisedAt_of_failed
    · rintro ⟨active, point, raised, trace⟩
      obtain ⟨error, names⟩ := failure
      obtain rfl : names = active.take 32 := trace
      exact raised.failed
  · intro active point error last raised
    refine ⟨raised.1.length_eq, ?_, raised.1.caller⟩
    intro others other otherError otherLast again
    exact raised.unique again
  · intro first listed point error state beneath raises
    have raised : RaisedAt fuel program entry limit world [] point error state.world :=
      ⟨⟨first, List.mem_append_left _ listed, beneath⟩, state, raises, rfl⟩
    exact raised.failed

/-- A source with an array of one element, a function that picks an element, and one that calls it
twice, the second time with an index that is too large. The expression initialises a variable. -/
def pickingSource (initial : Expr) : List Item :=
  let place : Span := ⟨0, 0⟩
  let number (value : UInt64) : Expr := .int place ⟨value, false, false, false⟩
  let i : Expr := .ident place "i"
  let pick (index : Expr) : Expr := .call place "pick" place [index]
  [.declaration ⟨false, .int, [⟨"a", some (number 1), none, place⟩], place⟩,
    .function ⟨.int, "pick", [⟨.int, "i", false, place⟩], some
      [.ret place (some (.subscript place (.ident place "a") i))], place⟩,
    .function ⟨.int, "twice", [⟨.int, "i", false, place⟩], some
      [.ret place (some (.binary place .add (pick i) (pick (.binary place .add i (number 5)))))],
      place⟩,
    .declaration ⟨false, .int, [⟨"first", none, some initial, place⟩], place⟩,
    .function ⟨.int, "main", [], some [.ret place (some (.ident place "first"))], place⟩]

/-- The initial value calls the second function with zero. -/
def pickingInCalls : List Item :=
  pickingSource (.call ⟨0, 0⟩ "twice" ⟨0, 0⟩ [.int ⟨0, 0⟩ ⟨0, false, false, false⟩])

/-- The initial value reads the array itself, behind its end. -/
def pickingOutside : List Item :=
  pickingSource (.subscript ⟨0, 0⟩ (.ident ⟨0, 0⟩ "a") (.int ⟨0, 0⟩ ⟨3, false, false, false⟩))

theorem picking_trace :
    (∃ program active point last, lower pickingInCalls = .ok program ∧
      runWith 40 program 2 10 ⟨.empty, .unlimited, none⟩ =
        .failed ⟨.indexOutOfRange 5 1, ["pick", "twice"]⟩ last ∧
      RaisedAt 40 program 2 10 ⟨.empty, .unlimited, none⟩ active point (.indexOutOfRange 5 1) last ∧
      active = ["pick", "twice"] ∧ active.length = point.context.depth) ∧
    ∃ program first point error state, lower pickingOutside = .ok program ∧
      first ∈ initPoints ⟨program, 10, 0⟩ 40 program.init
        (.initial program ⟨.empty, .unlimited, none⟩) ∧
      first.Beneath [] point ∧ point.Raises error state ∧
      runWith 40 program 2 10 ⟨.empty, .unlimited, none⟩ = .failed ⟨error, []⟩ state.world := by
  constructor
  · have checked : ((lower pickingInCalls).toOption.any fun program =>
        (runWith 40 program 2 10 ⟨.empty, .unlimited, none⟩).failure? ==
          some ⟨.indexOutOfRange 5 1, ["pick", "twice"]⟩) = true := by
      decide +kernel
    obtain ⟨program, accepted, holds⟩ := eq_ok_of_any checked
    obtain ⟨last, failed⟩ := Ending.eq_failed (beq_iff_eq.mp holds)
    obtain ⟨traced, place, _⟩ :=
      failure_trace_is_call_stack 40 program 2 10 ⟨.empty, .unlimited, none⟩
    obtain ⟨active, point, raised, trace⟩ := (traced _ last).mp failed
    refine ⟨program, active, point, last, accepted, failed, raised, ?_,
      (place active point _ last raised).1⟩
    have short : active.length ≤ 32 := by
      have cut := congrArg List.length trace
      rw [List.length_take] at cut
      change 2 = _ at cut
      omega
    rw [List.take_of_length_le short] at trace
    exact trace.symm
  · have checked : ((lower pickingOutside).toOption.any fun program =>
        (runWith 40 program 2 10 ⟨.empty, .unlimited, none⟩).failure? ==
            some ⟨.indexOutOfRange 3 1, []⟩ &&
          match execInit ⟨program, 10, 0⟩ 40 program.init
              (.initial program ⟨.empty, .unlimited, none⟩) with
          | .failed _ _ => true
          | _ => false) = true := by
      decide +kernel
    obtain ⟨program, accepted, holds⟩ := eq_ok_of_any checked
    obtain ⟨failed, initFails⟩ := Bool.and_eq_true_iff.mp holds
    obtain ⟨last, failed⟩ := Ending.eq_failed (beq_iff_eq.mp failed)
    obtain ⟨traced, _, direct⟩ :=
      failure_trace_is_call_stack 40 program 2 10 ⟨.empty, .unlimited, none⟩
    obtain ⟨active, point, ⟨⟨first, listed, beneath⟩, state, raises, _⟩, trace⟩ :=
      (traced _ last).mp failed
    have none : active = [] := List.take_eq_nil_iff.mp trace.symm |>.resolve_left (by omega)
    subst none
    have inInit : first ∈ initPoints ⟨program, 10, 0⟩ 40 program.init
        (.initial program ⟨.empty, .unlimited, none⟩) := by
      rcases List.mem_append.mp listed with here | behind
      · exact here
      · split at initFails
        · rename_i refused
          rw [refused] at behind
          cases behind
        · cases initFails
    exact ⟨program, first, point, _, state, accepted, inInit, beneath, raises,
      direct first inInit point _ state beneath raises⟩

end MiniC
