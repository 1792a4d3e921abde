import MiniC.Compile
import MiniC.Proofs.Machine.Courses
import MiniC.Proofs.Machine.Output
import MiniC.Proofs.Typing.Conversion

/-!
Sinks that are full.

A run with a sink that refuses some writes is the run with an unlimited sink up to
the first refused write. There it fails, and nothing else is tried.
-/

namespace MiniC

private theorem Failure.leave_error (failure : Failure) (name : String) :
    (failure.leave name).error = failure.error := by
  unfold leave
  split <;> rfl

namespace Machine

variable {gate : Writer} {point : Point}

/-- The second list of writes is the first up to a write that the writer of the sink refuses, which
is the error. What is before it has been taken, nothing has been tried behind it, and the record is
the one of that time. -/
def CutOff (sink : Sink) (free limited : List Write) (error : RuntimeError) (last : World) : Prop :=
  ∃ accepted refused rest kept reason, free = accepted ++ refused :: rest ∧
    limited = accepted ++ [refused] ∧
    sink.writer.answer (sink.taking (accepted.map Write.bytes)).log refused.bytes =
      .refused kept reason ∧
    last.sink =
      (sink.taking (accepted.map Write.bytes)).after [⟨refused.bytes, .refused kept reason⟩] ∧
    error = .output reason ∧ last.record? = refused.record?

theorem CutOff.behind {sink : Sink} {free limited : List Write} {error : RuntimeError}
    {last : World} (earlier rest : List Write)
    (cut : CutOff (sink.taking (earlier.map Write.bytes)) free limited error last) :
    CutOff sink (earlier ++ (free ++ rest)) (earlier ++ limited) error last := by
  obtain ⟨accepted, refused, later, kept, reason, rfl, rfl, answered, same, blamed, record⟩ := cut
  refine ⟨earlier ++ accepted, refused, later ++ rest, kept, reason, ?_, ?_, ?_, ?_, blamed,
    record⟩
  · simp only [List.append_assoc, List.cons_append]
  · rw [List.append_assoc]
  · rw [List.map_append, Sink.taking_append]
    exact answered
  · rw [List.map_append, Sink.taking_append]
    exact same

private theorem Write.tried_of_taken {builtin : Builtin} {args : List Value} (world : World)
    (taken : (world.sink.offer (builtin.pieces args world.heap)).2 = none) :
    tried world (builtin.invoke args world).world =
      all (builtin.pieces args world.heap) world.record? := by
  obtain ⟨attempts, comes, same⟩ :=
    world.sink.offer_comes (builtin.pieces_solid args world.heap)
  rw [taken] at comes
  cases comes
  rw [tried_invoke same, List.map_map]
  rfl

private theorem tried_of_not_stops {builtin : Builtin} {values : List Value} {state : State}
    (notStopped : ¬ (Limit.output gate).Stops
      (invoke builtin values ((Limit.output gate).onState state))) :
    Write.tried ((Limit.output gate).onState state).world
        (builtin.invoke values ((Limit.output gate).onState state).world).world =
      Write.tried state.world (builtin.invoke values state.world).world := by
  obtain ⟨globals, locals, heap, sink, record?⟩ := state
  obtain ⟨value, heapAfter, recordAfter?, same⟩ :=
    invoke_eq builtin values globals locals heap record?
  change ¬ Limit.Stops _ (invoke builtin values
    ⟨globals, locals, ⟨heap, sink.within gate, record?⟩⟩) at notStopped
  rw [same] at notStopped
  rcases sink.offer_within gate (builtin.pieces values heap) with
    ⟨last, limited, free⟩ | ⟨last, reason, refused⟩
  · have alone := Write.tried_of_taken ⟨heap, sink, record?⟩ (congrArg Prod.snd free)
    have behind :=
      Write.tried_of_taken ⟨heap, sink.within gate, record?⟩ (congrArg Prod.snd limited)
    exact behind.trans alone.symm
  · simp only [refused] at notStopped
    exact absurd rfl notStopped

private theorem cutOff_of_stops {builtin : Builtin} {values : List Value} {state : State}
    (unlimited : state.world.sink.writer = .unlimited)
    (stops : (Limit.output gate).Stops
      (invoke builtin values ((Limit.output gate).onState state))) :
    ∃ error last, invoke builtin values ((Limit.output gate).onState state) =
        .failed ⟨error, []⟩ last ∧
      CutOff ((Limit.output gate).onState state).world.sink
        (Write.tried state.world (builtin.invoke values state.world).world)
        (Write.tried ((Limit.output gate).onState state).world
          (builtin.invoke values ((Limit.output gate).onState state).world).world)
        error last.world := by
  rw [Write.tried_of_unlimited unlimited]
  obtain ⟨globals, locals, heap, sink, record?⟩ := state
  obtain ⟨value, heapAfter, recordAfter?, same⟩ :=
    invoke_eq builtin values globals locals heap record?
  change Limit.Stops _ (invoke builtin values
    ⟨globals, locals, ⟨heap, sink.within gate, record?⟩⟩) at stops
  change ∃ error last, invoke builtin values ⟨globals, locals, ⟨heap, sink.within gate, record?⟩⟩ =
      .failed ⟨error, []⟩ last ∧
    CutOff (sink.within gate) (Write.all (builtin.pieces values heap) record?)
      (Write.tried ⟨heap, sink.within gate, record?⟩
        (builtin.invoke values ⟨heap, sink.within gate, record?⟩).world) error last.world
  obtain ⟨attempts, comes, after⟩ :=
    (sink.within gate).offer_comes (builtin.pieces_solid values heap)
  rw [Write.tried_invoke after]
  rw [same] at stops ⊢
  generalize (sink.within gate).offer (builtin.pieces values heap) = answer at stops comes after ⊢
  obtain ⟨written, reason?⟩ := answer
  cases comes with
  | taken => exact absurd stops id
  | @refused accepted rest piece kept reason cut answered =>
      refine ⟨.output reason, _, rfl, Write.all accepted record?, ⟨piece, record?⟩,
        Write.all rest record?, kept, reason, ?_, ?_, ?_, ?_, rfl, rfl⟩
      · rw [cut]
        exact List.map_append
      · rw [List.map_append, List.map_map]
        rfl
      · rw [Write.bytes_all]
        exact answered
      · rw [Write.bytes_all, Sink.taking, ← Sink.after_append]
        exact after

namespace Point

private theorem ownWrites_of_spared (spared : point.Spared (.output gate)) :
    (point.under (.output gate)).ownWrites = point.ownWrites := by
  obtain ⟨_, each⟩ := calls_of_spared spared
  cases point with
  | eval context fuel term state =>
      cases fuel with
      | zero => rfl
      | succ fuel =>
          obtain ⟨ty, span, node⟩ := term
          cases node with
          | builtin builtin args =>
              obtain ⟨sameArgs, _⟩ := each (evalAll context fuel args state) List.mem_cons_self
              obtain ⟨_, notStopped⟩ := spared
              change ¬ Limit.Stops _ ((Machine.evalAll context fuel args >>= fun values =>
                invoke builtin values) ((Limit.output gate).onState state)) at notStopped
              change Machine.evalAll context fuel args ((Limit.output gate).onState state) = _
                at sameArgs
              change (eval context (fuel + 1) (.mk ty span (.builtin builtin args))
                ((Limit.output gate).onState state)).ownWrites = _
              rw [ownWrites, ownWrites]
              cases evaluated : Machine.evalAll context fuel args state with
              | done values between =>
                  rw [evaluated] at sameArgs
                  rw [bind_of_done sameArgs] at notStopped
                  rw [sameArgs]
                  exact tried_of_not_stops notStopped
              | failed failure between =>
                  rw [sameArgs, evaluated]
                  rfl
              | exhausted =>
                  rw [sameArgs, evaluated]
                  rfl
          | _ => rfl
  | _ => rfl

theorem flatMap_writes_under {points : List Point}
    (each : ∀ point ∈ points, (point.under (.output gate)).writes = point.writes) :
    (points.map (under (.output gate))).flatMap writes = points.flatMap writes := by
  rw [List.flatMap_map, List.flatMap_def, List.flatMap_def, List.map_congr_left each]

theorem writes_of_spared (spared : point.Spared (.output gate)) :
    (point.under (.output gate)).writes = point.writes := by
  induction bound : point.fuel using Nat.strongRecOn generalizing point with
  | ind fuel ih =>
      obtain ⟨sameCalls, each⟩ := calls_of_spared spared
      have calls : (point.calls.map (under (.output gate))).flatMap writes =
          point.calls.flatMap writes := by
        apply flatMap_writes_under
        intro next called
        have less := smaller called
        rw [bound] at less
        exact ih next.fuel less (each next called) rfl
      rw [writes_eq, writes_eq, sameCalls, calls, ownWrites_of_spared spared]

/-- A builtin writes nothing if its arguments have no values. -/
theorem ownWrites_of_call_failed {next : Point} {failure : Failure} {last : State}
    (called : next ∈ point.calls) (failed : next.ending = .failed failure last) :
    point.ownWrites = [] := by
  unfold ownWrites
  split
  · rename_i context fuel _ _ builtin args state
    rw [List.mem_singleton.mp called, ending] at failed
    cases evaluated : Machine.evalAll context fuel args state with
    | done values between =>
        rw [evaluated] at failed
        cases failed
    | failed failure between => rfl
    | exhausted => rfl
  · rfl

private theorem cutOff_of_refused {context : Context} {fuel : Nat} {ty : Ty} {span : Span}
    {builtin : Builtin} {args : List Term} {values : List Value} {state between : State}
    (unlimited : state.world.sink.writer = .unlimited)
    (spared : (evalAll context fuel args state).Spared (.output gate))
    (evaluated : Machine.evalAll context fuel args state = .done values between)
    (stops : (Limit.output gate).Stops
      (invoke builtin values ((Limit.output gate).onState between))) :
    ∃ failure last, ((eval context (fuel + 1) (.mk ty span (.builtin builtin args)) state).under
        (.output gate)).ending = .failed failure last ∧
      CutOff (state.world.sink.within gate)
        (eval context (fuel + 1) (.mk ty span (.builtin builtin args)) state).writes
        ((eval context (fuel + 1) (.mk ty span (.builtin builtin args)) state).under
          (.output gate)).writes failure.error last.world := by
  have sameArgs : Machine.evalAll context fuel args ((Limit.output gate).onState state) =
      .done values ((Limit.output gate).onState between) := by
    have same := spared.1
    rw [evaluated] at same
    exact same
  have ended : (evalAll context fuel args state).last? = some between := by
    rw [last?, evaluated]
    rfl
  have start := sink_last ended unlimited
  change between.world.sink = state.world.sink.taking _ at start
  obtain ⟨error, last, failed, cut⟩ := cutOff_of_stops (by rw [start]; exact unlimited) stops
  refine ⟨⟨error, []⟩, last, ?_, ?_⟩
  · change ((Machine.evalAll context fuel args >>= fun values => invoke builtin values)
      ((Limit.output gate).onState state)).forget = _
    rw [bind_of_done sameArgs, failed]
    rfl
  · have own : (eval context (fuel + 1) (.mk ty span (.builtin builtin args)) state).ownWrites =
        Write.tried between.world (builtin.invoke values between.world).world := by
      simp only [ownWrites, evaluated]
    have ownUnder : (eval context (fuel + 1) (.mk ty span (.builtin builtin args))
        ((Limit.output gate).onState state)).ownWrites =
        Write.tried ((Limit.output gate).onState between).world
          (builtin.invoke values ((Limit.output gate).onState between).world).world := by
      simp only [ownWrites, sameArgs]
    rw [writes_eq, own]
    change CutOff _ _ (eval context (fuel + 1) (.mk ty span (.builtin builtin args))
      ((Limit.output gate).onState state)).writes _ _
    rw [writes_eq, ownUnder]
    change CutOff _ (List.flatMap writes [evalAll context fuel args state] ++ _)
      (List.flatMap writes [(evalAll context fuel args state).under (.output gate)] ++ _) _ _
    simp only [List.flatMap_cons, List.flatMap_nil, List.append_nil, writes_of_spared spared]
    rw [← List.append_nil (Write.tried between.world _)]
    refine .behind _ [] ?_
    have sameSink : ((Limit.output gate).onState between).world.sink =
        (state.world.sink.within gate).taking
          ((evalAll context fuel args state).writes.map Write.bytes) :=
      congrArg (Sink.within gate) start
    rw [sameSink] at cut
    exact cut

/-- A point that a full sink stops fails at the first write that is refused. -/
theorem cutOff_of_stopped (unlimited : point.state.world.sink.writer = .unlimited)
    (stopped : point.Stopped (.output gate)) :
    ∃ failure last, (point.under (.output gate)).ending = .failed failure last ∧
      CutOff (point.state.world.sink.within gate) point.writes
        (point.under (.output gate)).writes failure.error last.world := by
  induction bound : point.fuel using Nat.strongRecOn generalizing point with
  | ind fuel ih =>
      cases course (.output gate) point with
      | spared _ _ spared => exact absurd stopped (not_stopped_of_spared spared)
      | exhausted isFuel _ => cases isFuel
      | overflows context fuel id args state error same left refused blamed =>
          rcases Limit.enter_alternatives _ id with
            ⟨_, missing⟩ | ⟨_, overflows⟩ | ⟨_, _, _, entered⟩
          · rw [missing] at refused
            cases refused
            cases blamed
          · rw [overflows] at refused
            cases refused
            cases blamed
          · rw [entered] at refused
            cases refused
      | refused refused _ each _ =>
          unfold Refused at refused
          split at refused
          · obtain ⟨values, between, evaluated, stops⟩ := refused
            exact cutOff_of_refused unlimited (each _ List.mem_cons_self) evaluated stops
          · cases refused
      | inner before behind last other splitCalls sameCalls each lastStopped same =>
          have called : last ∈ point.calls := by
            rw [splitCalls]
            exact List.mem_append_right _ List.mem_cons_self
          have less := smaller called
          rw [bound] at less
          have threads := (runs other).starts before last behind splitCalls
          have start := threads.sink_taking (fun _ _ _ ended => sink_last ended) unlimited
          obtain ⟨failure, state, failed, cut⟩ :=
            ih last.fuel less (by rw [start]; exact unlimited) lastStopped rfl
          refine ⟨failure, state, same.trans failed, ?_⟩
          have listed : last.under (.output gate) ∈ (point.under (.output gate)).calls := by
            rw [sameCalls]
            exact List.mem_append_right _ List.mem_cons_self
          rw [writes_eq, writes_eq (under _ _), ownWrites_of_call_failed listed failed, sameCalls,
            splitCalls, List.flatMap_append, List.flatMap_append, List.append_nil,
            flatMap_writes_under fun other found => writes_of_spared (each other found),
            List.flatMap_cons, List.flatMap_singleton, List.append_assoc, List.append_assoc]
          refine .behind _ _ ?_
          rw [start] at cut
          exact cut
      | enters context amount id args state function body same left free entered bodyStopped =>
          subst same
          have less := Nat.lt_of_lt_of_eq (Nat.lt_succ_self amount) bound
          obtain ⟨failure, last, failed, cut⟩ := @ih amount less
            (exec context.deeper amount body (state.entered function args)) unlimited bodyStopped rfl
          refine ⟨_, _, @ending_of_body_failed ((Limit.output gate).onContext context) amount id
            args ((Limit.output gate).onState state) last function body failure entered failed, ?_⟩
          rw [writes_of_enter free, under, Failure.leave_error]
          change CutOff _ _ (call ((Limit.output gate).onContext context) (amount + 1) id args
            ((Limit.output gate).onState state)).writes _ _
          rw [writes_of_enter entered]
          exact cut

end Point

/-! ### Runs -/

def Ending.mapSink (change : Sink → Sink) : Ending → Ending
  | .finished exitCode? world => .finished exitCode? { world with sink := change world.sink }
  | .failed failure world => .failed failure { world with sink := change world.sink }
  | .exhausted => .exhausted

theorem Ending.mapSink_congr {ending : Ending} {change other : Sink → Sink}
    (same : ∀ world, ending.world? = some world → change world.sink = other world.sink) :
    ending.mapSink change = ending.mapSink other := by
  cases ending with
  | exhausted => rfl
  | finished exitCode? world => rw [mapSink, mapSink, same world rfl]
  | failed failure world => rw [mapSink, mapSink, same world rfl]

variable {fuel calls : Nat} {program : Program} {entry : FunctionId} {world : World}

/-- A run that the writer of the sink does not stop. -/
private theorem runWith_of_spared (unlimited : world.sink.writer = .unlimited)
    (spares : (Limit.output gate).Spares (runOutcome fuel program entry calls world)
      (runOutcome fuel program entry calls ((Limit.output gate).onWorld world))) :
    runWith fuel program entry calls ((Limit.output gate).onWorld world) =
      (runWith fuel program entry calls world).mapSink fun sink => { sink with writer := gate } := by
  have mapped : runWith fuel program entry calls ((Limit.output gate).onWorld world) =
      (runWith fuel program entry calls world).mapSink (Sink.within gate) := by
    rw [runWith_eq, runWith_eq, spares.1]
    cases runOutcome fuel program entry calls world <;> rfl
  rw [mapped]
  refine Ending.mapSink_congr fun final ended => Sink.within_of_unlimited ?_ gate
  rw [sink_after_run unlimited ended]
  exact unlimited

/-- A run fails as its call of the evaluator does that is stopped. -/
private theorem runWith_of_stopped {failure : Failure} {last : State}
    (ends : (runOutcome fuel program entry calls world).forget = .failed failure last) :
    runWith fuel program entry calls world = .failed failure last.world := by
  rw [runWith_eq]
  generalize runOutcome fuel program entry calls world = outcome at ends
  cases outcome with
  | done value state => cases ends
  | exhausted => cases ends
  | failed failure state =>
      cases ends
      rfl

private theorem cutOff_of_point {before behind : List Point}
    (unlimited : world.sink.writer = .unlimited)
    (splitCalls : runPoints fuel program entry calls world = before ++ point :: behind)
    (sameCalls : runPoints fuel program entry calls ((Limit.output gate).onWorld world) =
      before.map (Point.under (.output gate)) ++ [point.under (.output gate)])
    (each : ∀ other ∈ before, other.Spared (.output gate)) (stopped : point.Stopped (.output gate)) :
    ∃ failure last, (point.under (.output gate)).ending = .failed failure last ∧
      CutOff (world.sink.within gate) (writes fuel program entry calls world)
        (writes fuel program entry calls ((Limit.output gate).onWorld world))
        failure.error last.world := by
  have threads := runPoints_starts splitCalls
  have start := threads.sink_taking (fun _ _ _ ended => Point.sink_last ended) unlimited
  obtain ⟨failure, last, failed, cut⟩ :=
    Point.cutOff_of_stopped (by rw [start]; exact unlimited) stopped
  refine ⟨failure, last, failed, ?_⟩
  rw [writes, writes, sameCalls, splitCalls, List.flatMap_append, List.flatMap_append,
    Point.flatMap_writes_under fun other found => Point.writes_of_spared (each other found),
    List.flatMap_cons, List.flatMap_singleton]
  refine .behind _ _ ?_
  rw [start] at cut
  exact cut

end Machine

open Lowering Machine

/-- A run whose writer may refuse what it likes either is the run with an unlimited sink, write for
write, or it fails at the first write that is refused. Then it has tried no other write, the sink
holds the writes before it, and the record is as it was when the unlimited run made that write. All
that the unlimited run writes ends up in its sink. -/
theorem run_with_full_sink (fuel : Nat) (program : Program) (entry : FunctionId) (calls : Nat)
    {world : World} (unlimited : world.sink.writer = .unlimited) (writer : Writer) :
    let limited : World := { world with sink := { world.sink with writer } }
    (runWith fuel program entry calls limited =
          (runWith fuel program entry calls world).mapSink (fun sink => { sink with writer }) ∧
        writes fuel program entry calls limited = writes fuel program entry calls world ∨
      ∃ failure last, runWith fuel program entry calls limited = .failed failure last ∧
        CutOff limited.sink (writes fuel program entry calls world)
          (writes fuel program entry calls limited) failure.error last) ∧
    ∀ final, (runWith fuel program entry calls world).world? = some final →
      final.sink =
          world.sink.taking ((writes fuel program entry calls world).map Write.bytes) ∧
        final.sink.written =
          world.sink.written ++ Write.total (writes fuel program entry calls world) := by
  intro limited
  have onWorld : (Limit.output writer).onWorld world = limited := by
    change { world with sink := world.sink.within writer } = limited
    rw [Sink.within_of_unlimited unlimited writer]
  rw [← onWorld]
  refine ⟨?_, fun final ended => ?_⟩
  · have follows := run_follows (.output writer) fuel program entry calls world
    cases follows with
    | spared sameCalls each spares =>
        refine Or.inl ⟨runWith_of_spared unlimited spares, ?_⟩
        change runPoints fuel program entry calls ((Limit.output writer).onWorld world) = _
          at sameCalls
        rw [writes, sameCalls]
        exact Point.flatMap_writes_under fun point listed =>
          Point.writes_of_spared (each point listed)
    | stopped before behind point splitCalls sameCalls each stopped ends =>
        obtain ⟨failure, last, failed, cut⟩ :=
          cutOff_of_point unlimited splitCalls sameCalls each stopped
        rw [failed] at ends
        exact Or.inr ⟨failure, last.world, runWith_of_stopped ends, cut⟩
  · have same := sink_after_run unlimited ended
    refine ⟨same, ?_⟩
    rw [same, Sink.written_taking]
    rfl

def greetingSource : List Item :=
  let place : Span := ⟨0, 0⟩
  [.function ⟨.int, "main", [], some
    [.expr place (.call place "puts" place [.str place "hi"]),
      .ret place (some (.int place ⟨0, false, false, false⟩))], place⟩]

theorem greeting_is_cut_off :
    let limited : Sink := { Sink.unlimited with writer := .limited 2 }
    ∃ (program : Program) (failure : Failure) (last : World),
      lower greetingSource = .ok program ∧
        runWith 20 program 0 10 ⟨.empty, limited, none⟩ = .failed failure last ∧
        CutOff limited (writes 20 program 0 10 ⟨.empty, .unlimited, none⟩)
          (writes 20 program 0 10 ⟨.empty, limited, none⟩) failure.error last := by
  intro limited
  have checked : ((lower greetingSource).toOption.any fun program =>
      match runWith 20 program 0 10 ⟨.empty, .unlimited, none⟩ with
      | .finished _ _ =>
          match runWith 20 program 0 10 ⟨.empty, limited, none⟩ with
          | .finished _ _ => false
          | .failed _ _ => true
          | .exhausted => false
      | .failed _ _ => false
      | .exhausted => false) = true := by
    decide +kernel
  obtain ⟨program, accepted, holds⟩ := eq_ok_of_any checked
  obtain ⟨same, _⟩ | ⟨failure, last, failed, cut⟩ :=
    (@run_with_full_sink 20 program 0 10 ⟨.empty, .unlimited, none⟩ rfl (.limited 2)).1
  · change runWith 20 program 0 10 ⟨.empty, limited, none⟩ = _ at same
    rw [same] at holds
    cases ending : runWith 20 program 0 10 ⟨.empty, .unlimited, none⟩ with
    | _ =>
        rw [ending] at holds
        cases holds
  · exact ⟨program, failure, last, accepted, failed, cut⟩

end MiniC
