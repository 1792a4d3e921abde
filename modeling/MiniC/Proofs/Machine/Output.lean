import MiniC.Proofs.Builtin.Writes
import MiniC.Proofs.Machine.History

/-!
The output of a run.

Output is only ever added, and only by the builtins. What a call has tried to
write is read off the log of the sink behind it, and noted together with the
record of the host at that time; a sink that refuses nothing takes in all the
writes of a run, one after the other.
-/

namespace MiniC.Machine

def Invocation.pieces (invocation : Invocation) : List ByteArray :=
  invocation.builtin.pieces invocation.args invocation.heap

variable {point : Point} {state before last : State}

theorem Point.Changes.sink (changes : point.Changes before last) :
    last.world.sink =
      (before.world.sink.offer (point.invocation?.elim [] Invocation.pieces)).1 := by
  cases changes with
  | none quiet =>
      rw [quiet]
      rfl
  | assign _ _ stored => exact (store_world stored).1
  | update _ _ _ stored => exact (store_world stored).1
  | invoke evaluated ended =>
      rw [invoke_last? ended, Point.invocation?, evaluated]
      exact Builtin.invoke_sink _ _ _
  | copy _ => rfl
  | newArray _ _ =>
      rw [State.allocated, State.setReference_world]
      rfl
  | newStruct =>
      rw [State.allocated, State.setReference_world]
      rfl
  | bind _ =>
      rw [State.setReference_world]
      rfl

theorem Leaves.sink {function : Function} {caller : Frame} {inner : State}
    (leaves : Leaves function caller inner last) : last.world.sink = inner.world.sink := by
  cases leaves with
  | plain => rfl
  | zero => rfl

/-- The second state has all the output of the first. -/
def State.Written (before after : State) : Prop :=
  ∃ rest, after.world.sink.written = before.world.sink.written ++ rest

private theorem State.Written.of_sink {after : State} (same : after.world.sink = state.world.sink) :
    state.Written after := by
  refine ⟨.empty, ?_⟩
  rw [same, ByteArray.append_empty]

theorem State.Written.trans {first second third : State} (written : first.Written second)
    (next : second.Written third) : first.Written third := by
  obtain ⟨middle, second⟩ := written
  obtain ⟨rest, third⟩ := next
  refine ⟨middle ++ rest, ?_⟩
  rw [third, second, ByteArray.append_assoc]

theorem Point.Changes.written (changes : point.Changes before last) : before.Written last := by
  unfold State.Written
  have solid : ∀ piece ∈ point.invocation?.elim [] Invocation.pieces, piece.size ≠ 0 := by
    cases point.invocation? with
    | none => exact List.forall_mem_nil _
    | some invocation => exact Builtin.pieces_solid _ _ _
  obtain ⟨attempts, _, same⟩ := before.world.sink.offer_comes solid
  rw [changes.sink, same]
  exact ⟨_, Sink.written_after _ attempts⟩

theorem Threads.written {points : List Point} (threads : Threads state points last)
    (each : ∀ point ∈ points, ∀ last, point.last? = some last → point.state.Written last)
    {called : Point} (listed : called ∈ points)
    (behind : ∀ middle, called.last? = some middle → before.Written middle) :
    before.Written last := by
  induction threads with
  | nil state => cases listed
  | @cons point rest middle last ended threads ih =>
      rcases List.mem_cons.mp listed with rfl | later
      · refine threads.kept ?_ (behind middle ended)
        intro other found next otherEnded written
        exact written.trans (each other (List.mem_cons_of_mem _ found) next otherEnded)
      · exact ih (fun other found => each other (List.mem_cons_of_mem _ found)) later

/-- What has been written when a point is reached is still there when it has ended. -/
theorem Point.Within.written {reached : Point} (within : point.Within reached)
    (ended : point.last? = some last) : reached.state.Written last := by
  refine @Point.end_induction (fun point last => ∀ reached, point.Within reached →
    reached.state.Written last) ?_ ?_ point last ended reached within
  · intro point before last _ _ each threads changes reached within
    have calls : ∀ next ∈ point.calls, ∀ last, next.last? = some last → next.state.Written last :=
      fun next called last ended => each next called last ended next (.here next)
    cases within with
    | here =>
        have start : point.state.Written before := by
          refine threads.kept ?_ (.of_sink rfl)
          intro next called last ended written
          exact written.trans (calls next called last ended)
        exact start.trans changes.written
    | @deeper _ next _ called inside =>
        have middle : reached.state.Written before :=
          threads.written calls called fun last ended => each next called last ended reached inside
        exact middle.trans changes.written
  · intro context fuel id args state function body inner last entered _ holds leaves reached within
    have inBody : reached.state.Written inner := by
      cases within with
      | here =>
          have start := holds _ (.here _)
          exact start
      | deeper called inside =>
          rw [calls_of_enter entered, List.mem_singleton] at called
          subst called
          exact holds reached inside
    exact inBody.trans (.of_sink leaves.sink)

theorem Visits.written {fuel limit : Nat} {program : Program} {entry : FunctionId}
    {world final : World} (visited : Visits fuel program entry limit world point)
    (ended : (runWith fuel program entry limit world).world? = some final) :
    ∃ rest, final.sink.written = point.state.world.sink.written ++ rest := by
  obtain ⟨first, listed, within⟩ := visited
  obtain ⟨last, threads, rfl⟩ := runPoints_ends ended
  exact threads.written (fun other _ _ ended => Point.Within.written (.here other) ended) listed
    fun _ ended => within.written ended

/-! ### Writes -/

/-- Bytes that are offered to the sink, and the record of the host at that time. -/
structure Write where
  bytes : ByteArray
  record? : Option WorkRecord

def Write.total (writes : List Write) : ByteArray := Sink.joined (writes.map Write.bytes)

def Write.all (pieces : List ByteArray) (record? : Option WorkRecord) : List Write :=
  pieces.map (⟨·, record?⟩)

theorem Write.bytes_all (pieces : List ByteArray) (record? : Option WorkRecord) :
    (all pieces record?).map bytes = pieces := by
  rw [all, List.map_map]
  exact List.map_id pieces

/-- What has been tried on the way from one world to another. -/
def Write.tried (before after : World) : List Write :=
  (before.sink.triedSince after.sink).map fun attempt => ⟨attempt.bytes, before.record?⟩

theorem Write.tried_invoke {builtin : Builtin} {args : List Value} {world : World}
    {attempts : List Writer.Attempt}
    (same : (world.sink.offer (builtin.pieces args world.heap)).1 = world.sink.after attempts) :
    tried world (builtin.invoke args world).world =
      attempts.map fun attempt => ⟨attempt.bytes, world.record?⟩ := by
  rw [tried, Builtin.invoke_sink, same, Sink.triedSince_after]

theorem Write.tried_of_unlimited {world : World} (unlimited : world.sink.writer = .unlimited)
    (builtin : Builtin) (args : List Value) :
    tried world (builtin.invoke args world).world =
      all (builtin.pieces args world.heap) world.record? := by
  have taken := Sink.offer_of_unlimited unlimited (builtin.pieces_solid args world.heap)
  rw [tried_invoke (congrArg Prod.fst taken), List.map_map]
  rfl

namespace Point

def ownWrites : Point → List Write
  | eval context (fuel + 1) (.mk _ _ (.builtin builtin args)) state =>
      match Machine.evalAll context fuel args state with
      | .done values after => Write.tried after.world (builtin.invoke values after.world).world
      | _ => []
  | _ => []

def writes (point : Point) : List Write := (point.history .global).flatMap ownWrites

theorem writes_eq (point : Point) :
    point.writes = point.calls.flatMap writes ++ point.ownWrites := by
  unfold writes
  rw [history_eq, List.flatMap_append, List.flatMap_assoc, List.flatMap_singleton]
  rfl

theorem writes_of_enter {context : Context} {fuel : Nat} {id : FunctionId} {args : List Value}
    {function : Function} {body : Command} (entered : enter context id = .ok (function, body)) :
    (call context (fuel + 1) id args state).writes =
      (exec context.deeper fuel body (state.entered function args)).writes := by
  rw [writes_eq, calls_of_enter entered]
  simp only [List.flatMap_cons, List.flatMap_nil, List.append_nil, ownWrites]

private theorem ownWrites_of_quiet (quiet : point.invocation? = none) : point.ownWrites = [] := by
  unfold ownWrites
  split
  · split
    · rename_i done
      unfold invocation? at quiet
      simp only [done] at quiet
      cases quiet
    · rfl
  · rfl

theorem Changes.sink_taking (changes : point.Changes before last)
    (unlimited : before.world.sink.writer = .unlimited) :
    last.world.sink = before.world.sink.taking (point.ownWrites.map Write.bytes) := by
  rw [changes.sink]
  cases changes with
  | none quiet =>
      rw [quiet, ownWrites_of_quiet quiet]
      rfl
  | invoke evaluated ended =>
      simp only [invocation?, ownWrites, evaluated]
      rw [Write.tried_of_unlimited unlimited, Write.bytes_all]
      exact congrArg Prod.fst (Sink.offer_of_unlimited unlimited (Builtin.pieces_solid _ _ _))
  | _ => rfl

end Point

theorem Threads.sink_taking {points : List Point} (threads : Threads state points last)
    (each : ∀ point ∈ points, ∀ last, point.last? = some last →
      point.state.world.sink.writer = .unlimited →
        last.world.sink = point.state.world.sink.taking (point.writes.map Write.bytes))
    (unlimited : state.world.sink.writer = .unlimited) :
    last.world.sink = state.world.sink.taking ((points.flatMap Point.writes).map Write.bytes) := by
  induction threads with
  | nil state => rfl
  | @cons point rest middle last ended _ ih =>
      have first := each point List.mem_cons_self middle ended unlimited
      have behind := ih (fun other listed => each other (List.mem_cons_of_mem _ listed))
        (by rw [first]; exact unlimited)
      rw [behind, first, List.flatMap_cons, List.map_append, Sink.taking_append]

/-- A sink that refuses nothing takes in all that is written. -/
theorem Point.sink_last (ended : point.last? = some last)
    (unlimited : point.state.world.sink.writer = .unlimited) :
    last.world.sink = point.state.world.sink.taking (point.writes.map Write.bytes) := by
  revert unlimited
  refine @Point.end_induction (fun point last => point.state.world.sink.writer = .unlimited →
    last.world.sink = point.state.world.sink.taking (point.writes.map Write.bytes))
    ?_ ?_ point last ended
  · intro point before last _ _ each threads changes unlimited
    have calls := threads.sink_taking each unlimited
    have own := changes.sink_taking (by rw [calls]; exact unlimited)
    rw [own, calls, writes_eq, List.map_append, Sink.taking_append]
  · intro context fuel id args state function body inner last entered _ holds leaves unlimited
    rw [leaves.sink, holds unlimited, writes_of_enter entered]
    rfl

def writes (fuel : Nat) (program : Program) (entry : FunctionId) (limit : Nat) (world : World) :
    List Write :=
  (runPoints fuel program entry limit world).flatMap Point.writes

theorem sink_after_run {fuel limit : Nat} {program : Program} {entry : FunctionId}
    {world final : World} (unlimited : world.sink.writer = .unlimited)
    (ended : (runWith fuel program entry limit world).world? = some final) :
    final.sink =
      world.sink.taking ((writes fuel program entry limit world).map Write.bytes) := by
  obtain ⟨last, threads, rfl⟩ := runPoints_ends ended
  exact threads.sink_taking (fun _ _ _ ended => Point.sink_last ended) unlimited

end MiniC.Machine
