import MiniC.Builtin.Invoke

/-!
What builtin functions write.

A builtin offers pieces of output to the sink, one after the other, and ends with
an error at the first piece that is refused. Which pieces these are, and what the
builtin does otherwise, does not depend on the sink.
-/

namespace MiniC

open Writer

namespace Writer

/-- A writer that is asked only about what another one takes. -/
def behind (writer gate : Writer) : Writer :=
  ⟨fun log bytes =>
    match gate.answer log bytes with
    | .taken => writer.answer log bytes
    | .refused kept reason => .refused kept reason⟩

variable {writer gate : Writer} {log : Log} {bytes : ByteArray}

theorem taken_of_behind (taken : (writer.behind gate).answer log bytes = .taken) :
    writer.answer log bytes = .taken := by
  simp only [behind] at taken
  split at taken
  · exact taken
  · cases taken

theorem unlimited_behind (gate : Writer) : Writer.unlimited.behind gate = gate := by
  have same (log : Log) (bytes : ByteArray) :
      (Writer.unlimited.behind gate).answer log bytes = gate.answer log bytes := by
    simp only [behind]
    cases gate.answer log bytes <;> rfl
  exact congrArg Writer.mk (funext fun log => funext (same log))

end Writer

namespace Sink

/-- The sink after attempts. -/
def after (sink : Sink) (attempts : List Attempt) : Sink :=
  { sink with log := attempts.foldl Log.add sink.log }

def taking (sink : Sink) (pieces : List ByteArray) : Sink :=
  sink.after (pieces.map (⟨·, .taken⟩))

def triedSince (earlier later : Sink) : List Attempt :=
  later.log.attempts.toList.drop earlier.log.attempts.size

def joined (pieces : List ByteArray) : ByteArray := pieces.foldr (· ++ ·) .empty

theorem after_append (sink : Sink) (first second : List Attempt) :
    sink.after (first ++ second) = (sink.after first).after second := by
  simp only [after, List.foldl_append]

theorem taking_append (sink : Sink) (first second : List ByteArray) :
    sink.taking (first ++ second) = (sink.taking first).taking second := by
  simp only [taking, List.map_append, after_append]

theorem written_after (sink : Sink) (attempts : List Attempt) :
    (sink.after attempts).written = sink.written ++ joined (attempts.map Attempt.kept) := by
  induction attempts generalizing sink with
  | nil => exact ByteArray.append_empty.symm
  | cons attempt rest ih =>
      have first : (sink.after [attempt]).written = sink.written ++ attempt.kept := rfl
      change ((sink.after [attempt]).after rest).written = _
      rw [ih, first, ByteArray.append_assoc]
      rfl

theorem written_taking (sink : Sink) (pieces : List ByteArray) :
    (sink.taking pieces).written = sink.written ++ joined pieces := by
  rw [taking, written_after, List.map_map]
  exact congrArg (sink.written ++ joined ·) (List.map_id pieces)

private theorem attempts_after (sink : Sink) (attempts : List Attempt) :
    (sink.after attempts).log.attempts.toList = sink.log.attempts.toList ++ attempts := by
  induction attempts generalizing sink with
  | nil => exact (List.append_nil _).symm
  | cons attempt rest ih =>
      have first : (sink.after [attempt]).log.attempts.toList =
          sink.log.attempts.toList ++ [attempt] := Array.toList_push
      change ((sink.after [attempt]).after rest).log.attempts.toList = _
      rw [ih, first, List.append_assoc, List.singleton_append]

theorem triedSince_after (sink : Sink) (attempts : List Attempt) :
    sink.triedSince (sink.after attempts) = attempts := by
  rw [triedSince, attempts_after, ← Array.length_toList, List.drop_left]

theorem write_nothing {bytes : ByteArray} (nothing : bytes.size = 0) (sink : Sink) :
    sink.write bytes = (sink, none) :=
  if_pos nothing

private theorem write_something {bytes : ByteArray} (something : bytes.size ≠ 0) (sink : Sink) :
    sink.write bytes = (sink.after [⟨bytes, sink.writer.answer sink.log bytes⟩],
      (sink.writer.answer sink.log bytes).reason?) :=
  if_neg something

theorem written_write {sink : Sink} {bytes : ByteArray} (taken : (sink.write bytes).2 = none) :
    (sink.write bytes).1.written = sink.written ++ bytes := by
  by_cases nothing : bytes.size = 0
  · rw [write_nothing nothing, ByteArray.size_eq_zero_iff.mp nothing, ByteArray.append_empty]
  · rw [write_something nothing] at taken ⊢
    cases answered : sink.writer.answer sink.log bytes with
    | refused kept reason =>
        rw [answered] at taken
        cases taken
    | taken => rfl

theorem write_of_unlimited {sink : Sink} (unlimited : sink.writer = .unlimited)
    (bytes : ByteArray) : (sink.write bytes).2 = none := by
  by_cases nothing : bytes.size = 0
  · rw [write_nothing nothing]
  · rw [write_something nothing, unlimited]
    rfl

def offer (sink : Sink) : List ByteArray → Sink × Option String
  | [] => (sink, none)
  | piece :: rest =>
      match sink.write piece with
      | (sink, none) => sink.offer rest
      | (sink, some reason) => (sink, some reason)

/-- What may come of offering pieces: all of them are taken, or they are up to one that the writer
refuses, and that is the last attempt. -/
inductive Comes (sink : Sink) (pieces : List ByteArray) : List Attempt → Option String → Prop where
  | taken : Comes sink pieces (pieces.map (⟨·, .taken⟩)) none
  | refused {accepted rest : List ByteArray} {piece : ByteArray} {kept : Nat} {reason : String} :
      pieces = accepted ++ piece :: rest →
      sink.writer.answer (sink.taking accepted).log piece = .refused kept reason →
      Comes sink pieces (accepted.map (⟨·, .taken⟩) ++ [⟨piece, .refused kept reason⟩])
        (some reason)

theorem Comes.cons {sink : Sink} {piece : ByteArray} {pieces : List ByteArray}
    {attempts : List Attempt} {reason? : Option String}
    (comes : Comes (sink.after [⟨piece, .taken⟩]) pieces attempts reason?) :
    Comes sink (piece :: pieces) (⟨piece, .taken⟩ :: attempts) reason? := by
  cases comes with
  | taken => exact .taken
  | @refused accepted _ _ _ _ cut refuses =>
      exact @refused _ _ (piece :: accepted) _ _ _ _ (by rw [cut]; rfl) refuses

theorem offer_comes (sink : Sink) {pieces : List ByteArray}
    (solid : ∀ piece ∈ pieces, piece.size ≠ 0) :
    ∃ attempts, Comes sink pieces attempts (sink.offer pieces).2 ∧
      (sink.offer pieces).1 = sink.after attempts := by
  induction pieces generalizing sink with
  | nil => exact ⟨[], .taken, rfl⟩
  | cons piece rest ih =>
      rw [List.forall_mem_cons] at solid
      simp only [offer, write_something solid.1]
      cases answered : sink.writer.answer sink.log piece with
      | refused kept reason => exact ⟨_, @Comes.refused _ _ [] rest _ _ _ rfl answered, rfl⟩
      | taken =>
          obtain ⟨attempts, comes, same⟩ := ih (sink.after [⟨piece, .taken⟩]) solid.2
          exact ⟨_, comes.cons, same⟩

theorem offer_of_unlimited {sink : Sink} (unlimited : sink.writer = .unlimited)
    {pieces : List ByteArray} (solid : ∀ piece ∈ pieces, piece.size ≠ 0) :
    sink.offer pieces = (sink.taking pieces, none) := by
  induction pieces generalizing sink with
  | nil => rfl
  | cons piece rest ih =>
      rw [List.forall_mem_cons] at solid
      simp only [offer, write_something solid.1, unlimited]
      exact @ih (sink.after [⟨piece, .taken⟩]) unlimited solid.2

theorem offer_filter (sink : Sink) (pieces : List ByteArray) :
    sink.offer (pieces.filter fun piece => piece.size ≠ 0) = sink.offer pieces := by
  induction pieces generalizing sink with
  | nil => rfl
  | cons piece rest ih =>
      by_cases nothing : piece.size = 0
      · simp only [List.filter_cons, ne_eq, nothing, not_true_eq_false, decide_false,
          Bool.false_eq_true, if_false, offer, write_nothing nothing, ih]
      · simp only [List.filter_cons, ne_eq, nothing, not_false_eq_true, decide_true, if_true,
          offer]
        split
        · exact ih _
        · rfl

/-- The sink whose writer is asked only about what another one takes. -/
def within (gate : Writer) (sink : Sink) : Sink :=
  { sink with writer := sink.writer.behind gate }

theorem within_of_unlimited {sink : Sink} (unlimited : sink.writer = .unlimited) (gate : Writer) :
    sink.within gate = { sink with writer := gate } := by
  rw [within, unlimited, unlimited_behind]

/-- A piece that is taken behind a gate is taken without it, too. -/
theorem write_within (sink : Sink) (gate : Writer) (bytes : ByteArray) :
    (∃ last, (sink.within gate).write bytes = (last.within gate, none) ∧
        sink.write bytes = (last, none)) ∨
      ∃ last reason, (sink.within gate).write bytes = (last, some reason) := by
  by_cases nothing : bytes.size = 0
  · exact Or.inl ⟨sink, write_nothing nothing _, write_nothing nothing sink⟩
  · rw [write_something nothing, write_something nothing]
    cases gated : (sink.within gate).writer.answer (sink.within gate).log bytes with
    | refused kept reason => exact Or.inr ⟨_, reason, rfl⟩
    | taken =>
        have free : sink.writer.answer sink.log bytes = .taken := taken_of_behind gated
        rw [free]
        exact Or.inl ⟨_, rfl, rfl⟩

theorem offer_within (sink : Sink) (gate : Writer) (pieces : List ByteArray) :
    (∃ last, (sink.within gate).offer pieces = (last.within gate, none) ∧
        sink.offer pieces = (last, none)) ∨
      ∃ last reason, (sink.within gate).offer pieces = (last, some reason) := by
  induction pieces generalizing sink with
  | nil => exact Or.inl ⟨sink, rfl, rfl⟩
  | cons piece rest ih =>
      simp only [offer]
      rcases write_within sink gate piece with ⟨last, gated, free⟩ | ⟨last, reason, refused⟩
      · simp only [gated, free]
        exact ih last
      · simp only [refused]
        exact Or.inr ⟨last, reason, rfl⟩

end Sink

namespace Builtin

/-! ### Builtins -/

def texts (builtin : Builtin) (args : List Value) (heap : Heap) : List ByteArray :=
  match builtin with
  | printf =>
      let text :=
        match args with
        | .str text :: rest => format text rest
        | _ => ""
      [text.toUTF8]
  | puts =>
      let text :=
        match args with
        | .str text :: _ => text
        | _ => ""
      [text.toUTF8, "\n".toUTF8]
  | putc => [ByteArray.empty.push (argAt args 0).toI32.toUInt32.toUInt8]
  | fwrite =>
      let size := min 8 (argAt args 1).toI64.toInt.toNat
      let count := (argAt args 2).toI64.toInt.toNat
      match argAt args 0 with
      | .array address =>
          match heap[address]? with
          | some (.array _ elements) =>
              if size = 0 then [] else [elementBytes size count elements]
          | _ => []
      | _ => []
  | _ => []

/-- The pieces of output that reach the sink; nothing is written for an empty one. -/
def pieces (builtin : Builtin) (args : List Value) (heap : Heap) : List ByteArray :=
  (builtin.texts args heap).filter fun text => text.size ≠ 0

theorem pieces_solid (builtin : Builtin) (args : List Value) (heap : Heap) :
    ∀ piece ∈ builtin.pieces args heap, piece.size ≠ 0 :=
  fun _ listed => of_decide_eq_true (List.mem_filter.mp listed).2

/-- A call whose only dealing with the sink is to offer it the pieces. -/
def Offers (call : World → Outcome) (heap : Heap) (record? : Option WorkRecord)
    (pieces : List ByteArray) : Prop :=
  ∃ value heapAfter recordAfter?, ∀ sink,
    call ⟨heap, sink, record?⟩ =
      match sink.offer pieces with
      | (sink, none) => ⟨.ok value, ⟨heapAfter, sink, recordAfter?⟩⟩
      | (sink, some reason) => ⟨.error (.output reason), ⟨heap, sink, record?⟩⟩

theorem Offers.nothing {call : World → Outcome} {heap : Heap} {record? : Option WorkRecord}
    (value : Value) (heapAfter : Heap) (recordAfter? : Option WorkRecord)
    (same : ∀ sink, call ⟨heap, sink, record?⟩ = .ok value ⟨heapAfter, sink, recordAfter?⟩) :
    Offers call heap record? [] :=
  ⟨value, heapAfter, recordAfter?, same⟩

theorem Offers.writeThen {next : World → Outcome} {heap : Heap} {record? : Option WorkRecord}
    {pieces : List ByteArray} (rest : Offers next heap record? pieces) (bytes : ByteArray) :
    Offers (writeThen · bytes next) heap record? (bytes :: pieces) := by
  obtain ⟨value, heapAfter, recordAfter?, same⟩ := rest
  refine ⟨value, heapAfter, recordAfter?, ?_⟩
  intro sink
  simp only [Builtin.writeThen, Sink.offer]
  generalize sink.write bytes = answer
  obtain ⟨written, reason?⟩ := answer
  cases reason? with
  | none => exact same written
  | some reason => rfl

theorem Offers.write (bytes : ByteArray) (value : Value) (heap : Heap)
    (record? : Option WorkRecord) :
    Offers (Builtin.writeThen · bytes (.ok value)) heap record? [bytes] :=
  .writeThen (.nothing value heap record? fun _ => rfl) bytes

private theorem runFwrite_offers (args : List Value) (heap : Heap) (record? : Option WorkRecord) :
    Offers (runFwrite args) heap record? (texts .fwrite args heap) := by
  have silent (texts : texts .fwrite args heap = [])
      (same : ∀ sink, runFwrite args ⟨heap, sink, record?⟩ = .ok (.i64 0) ⟨heap, sink, record?⟩) :
      Offers (runFwrite args) heap record? (Builtin.texts .fwrite args heap) := by
    rw [texts]
    exact .nothing (.i64 0) heap record? same
  cases buffer : argAt args 0 with
  | array address =>
      cases found : heap[address]? with
      | none =>
          apply silent
          · simp only [texts, buffer, found]
          · intro sink
            simp only [runFwrite, buffer, found]
      | some object =>
          cases object with
          | struct name members fields =>
              apply silent
              · simp only [texts, buffer, found]
              · intro sink
                simp only [runFwrite, buffer, found]
          | array kind elements =>
              by_cases unsized : min 8 (argAt args 1).toI64.toInt.toNat = 0
              · apply silent
                · simp only [texts, buffer, found, if_pos unsized]
                · intro sink
                  simp only [runFwrite, buffer, found, if_pos unsized]
              · obtain ⟨value, heapAfter, recordAfter?, same⟩ :=
                  Offers.write (elementBytes (min 8 (argAt args 1).toI64.toInt.toNat)
                    (argAt args 2).toI64.toInt.toNat elements)
                    (.i64 (Int64.ofNat (min (argAt args 2).toI64.toInt.toNat elements.size)))
                    heap record?
                refine ⟨value, heapAfter, recordAfter?, ?_⟩
                intro sink
                simp only [texts, runFwrite, buffer, found, if_neg unsized]
                exact same sink
  | _ =>
      apply silent
      · simp only [texts, buffer]
      · intro sink
        simp only [runFwrite, buffer]

private theorem runCheckPow_offers (args : List Value) (heap : Heap) (record? : Option WorkRecord) :
    Offers (runCheckPow args) heap record? [] := by
  cases checked : ProofOfWork.check #v[(argAt args 0).toI32, (argAt args 1).toI32,
      (argAt args 2).toI32, (argAt args 3).toI32] record? with
  | mk answer recordAfter? =>
      refine .nothing (.i32 answer) heap recordAfter? ?_
      intro sink
      simp only [runCheckPow, checked]

private theorem runSyncR_offers (args : List Value) (heap : Heap) (record? : Option WorkRecord) :
    Offers (runSyncR args) heap record? [] := by
  unfold runSyncR
  cases flags : (args.head?.bind (objectOf? heap)).bind flagsOf? with
  | none =>
      refine .nothing .void heap record? fun sink => ?_
      simp only [flags]
  | some both =>
      obtain ⟨isPow, isBounty⟩ := both
      refine .nothing .void heap
        (record?.map fun record => { record with isPow, isBounty }) fun sink => ?_
      simp only [flags]

private theorem runPullTheRest_offers (args : List Value) (heap : Heap)
    (record? : Option WorkRecord) :
    Offers (runPullTheRest args) heap record? [] := by
  cases first : argAt args 0 with
  | array ints =>
      cases second : argAt args 1 with
      | array storage =>
          cases record? with
          | none =>
              refine .nothing .void heap none ?_
              intro sink
              simp only [runPullTheRest, first, second]
          | some record =>
              by_cases fits : (arrayLength? heap ints = some 12 &&
                  arrayLength? heap storage = some record.storage.length) = true
              · refine .nothing .void ((heap.modify ints (overwrite record.personalInts.toList)).modify
                  storage (overwrite record.storage)) (some record) ?_
                intro sink
                simp only [runPullTheRest, first, second, if_pos fits]
              · refine .nothing .void heap (some record) ?_
                intro sink
                simp only [runPullTheRest, first, second, if_neg fits]
      | _ =>
          refine .nothing .void heap record? ?_
          intro sink
          simp only [runPullTheRest, first, second]
  | _ =>
      refine .nothing .void heap record? ?_
      intro sink
      simp only [runPullTheRest, first]

theorem invoke_offers (builtin : Builtin) (args : List Value) (heap : Heap)
    (record? : Option WorkRecord) :
    Offers (builtin.invoke args) heap record? (builtin.pieces args heap) := by
  have offers : Offers (builtin.invoke args) heap record? (builtin.texts args heap) := by
    cases builtin with
    | printf => exact .write _ _ heap record?
    | puts => exact .writeThen (.write _ _ heap record?) _
    | putc => exact .write _ _ heap record?
    | fwrite => exact runFwrite_offers args heap record?
    | checkPow => exact runCheckPow_offers args heap record?
    | syncR => exact runSyncR_offers args heap record?
    | pullTheRest => exact runPullTheRest_offers args heap record?
    | _ => exact .nothing _ heap record? fun _ => rfl
  obtain ⟨value, heapAfter, recordAfter?, same⟩ := offers
  refine ⟨value, heapAfter, recordAfter?, ?_⟩
  intro sink
  unfold pieces
  rw [same sink, Sink.offer_filter]

theorem invoke_sink (builtin : Builtin) (args : List Value) (world : World) :
    (builtin.invoke args world).world.sink =
      (world.sink.offer (builtin.pieces args world.heap)).1 := by
  obtain ⟨heap, sink, record?⟩ := world
  obtain ⟨value, heapAfter, recordAfter?, same⟩ := builtin.invoke_offers args heap record?
  rw [same]
  generalize sink.offer (builtin.pieces args heap) = answer
  obtain ⟨written, reason?⟩ := answer
  cases reason? <;> rfl

end Builtin
end MiniC
