import MiniC.Compile
import MiniC.Proofs.Machine.History
import MiniC.Proofs.Typing.Conversion

/-!
What a run changes in the record of its host.

Only two builtins write to the record: checking proof of work notes a hash, and
synchronising notes two flags. So the record behind a run is told by the calls of
these builtins alone, whatever else the program does and however the run ends.
-/

namespace MiniC

open Lowering Machine

namespace Machine.Invocation

/-- The words that are hashed, if proof of work is checked. -/
def words? (invocation : Invocation) : Option (Vector Int32 4) :=
  match invocation.builtin with
  | .checkPow =>
      let word (index : Nat) : Int32 := (Builtin.argAt invocation.args index).toI32
      some #v[word 0, word 1, word 2, word 3]
  | _ => none

/-- The flags that are read, if a variable that has them is synchronised. -/
def flags? (invocation : Invocation) : Option (Bool × Bool) :=
  match invocation.builtin with
  | .syncR =>
      (invocation.args.head?.bind (Builtin.objectOf? invocation.heap)).bind Builtin.flagsOf?
  | _ => none

end Machine.Invocation

/-- The record behind calls of builtins: it has the hash of the words that were hashed last, and
the flags that were read last. -/
def WorkRecord.after (record : WorkRecord) (invocations : List Invocation) : WorkRecord :=
  let powHash :=
    match (invocations.filterMap Invocation.words?).getLast? with
    | some words => ProofOfWork.hash (ProofOfWork.input words record.personalInts)
    | none => record.powHash
  let flags := (invocations.filterMap Invocation.flags?).getLast?.getD (record.isPow, record.isBounty)
  { record with powHash, isPow := flags.1, isBounty := flags.2 }

namespace WorkRecord

theorem after_nil (record : WorkRecord) : record.after [] = record := rfl

theorem after_append (record : WorkRecord) (first second : List Invocation) :
    record.after (first ++ second) = (record.after first).after second := by
  simp only [after, List.filterMap_append, List.getLast?_append]
  cases (second.filterMap Invocation.words?).getLast? <;>
    cases (second.filterMap Invocation.flags?).getLast? <;> rfl

theorem after_quiet (record : WorkRecord) {invocation : Invocation}
    (words : invocation.words? = none) (flags : invocation.flags? = none) :
    record.after [invocation] = record := by
  simp only [after, List.filterMap_cons, words, flags, List.filterMap_nil, List.getLast?_nil,
    Option.getD_none]

end WorkRecord

private theorem ProofOfWork.check_record? (words : Vector Int32 4) (record? : Option WorkRecord) :
    (check words record?).2 =
      record?.map fun record => { record with powHash := hash (input words record.personalInts) } := by
  cases record? with
  | none => simp only [check, Option.map_none]
  | some record => simp only [check, Option.getD_some, Option.map_some]

private theorem Builtin.writeThen_record? {world : World} {bytes : ByteArray}
    {next : World → Outcome}
    (kept : ∀ sink, (next { world with sink }).world.record? = world.record?) :
    (writeThen world bytes next).world.record? = world.record? := by
  unfold writeThen
  simp only
  split
  · exact kept _
  · rfl

private theorem Builtin.invoke_record? (builtin : Builtin) (args : List Value) (world : World) :
    (builtin.invoke args world).world.record? =
      world.record?.map (·.after [⟨builtin, args, world.heap⟩]) := by
  have quiet (words : Invocation.words? ⟨builtin, args, world.heap⟩ = none)
      (flags : Invocation.flags? ⟨builtin, args, world.heap⟩ = none) :
      world.record?.map (·.after [⟨builtin, args, world.heap⟩]) = world.record? := by
    simp only [WorkRecord.after_quiet _ words flags, Option.map_id']
  cases builtin with
  | checkPow =>
      change (ProofOfWork.check _ world.record?).2 = _
      rw [ProofOfWork.check_record?]
      simp only [WorkRecord.after, Invocation.words?, Invocation.flags?, List.filterMap_cons,
        List.filterMap_nil, List.getLast?_singleton, List.getLast?_nil, Option.getD_none]
  | syncR =>
      change (runSyncR args world).world.record? = _
      unfold runSyncR
      simp only
      split
      · rename_i isPow isBounty read
        simp only [WorkRecord.after, Invocation.words?, Invocation.flags?, List.filterMap_cons,
          read]
        rfl
      · rename_i read
        exact (quiet rfl read).symm
  | pullTheRest =>
      rw [quiet rfl rfl]
      change (runPullTheRest args world).world.record? = _
      unfold runPullTheRest
      split
      · rename_i ints storage record _ _ found
        simp only
        split
        · exact found.symm ▸ rfl
        · exact found.symm ▸ rfl
      · rfl
  | printf =>
      rw [quiet rfl rfl]
      exact writeThen_record? fun _ => rfl
  | puts =>
      rw [quiet rfl rfl]
      exact writeThen_record? fun _ => writeThen_record? fun _ => rfl
  | putc =>
      rw [quiet rfl rfl]
      exact writeThen_record? fun _ => rfl
  | fwrite =>
      rw [quiet rfl rfl]
      change (runFwrite args world).world.record? = _
      unfold runFwrite
      simp only
      split
      · split
        · split
          · rfl
          · exact writeThen_record? fun _ => rfl
        · rfl
      · rfl
  | _ => exact (quiet rfl rfl).symm

namespace Machine

variable {point : Point} {state before last : State}

theorem Point.Changes.record? (changes : point.Changes before last) :
    last.world.record? = before.world.record?.map (·.after point.invocation?.toList) := by
  have still {record? : Option WorkRecord} : record? = record?.map (·.after []) := by
    simp only [WorkRecord.after_nil, Option.map_id']
  cases changes with
  | none quiet =>
      rw [quiet]
      exact still
  | assign _ _ stored =>
      rw [(store_world stored).2]
      exact still
  | update _ _ _ stored =>
      rw [(store_world stored).2]
      exact still
  | invoke evaluated ended =>
      rw [invoke_last? ended, Point.invocation?, evaluated]
      exact Builtin.invoke_record? _ _ _
  | copy _ => exact still
  | newArray _ _ =>
      rw [State.allocated, State.setReference_world]
      exact still
  | newStruct =>
      rw [State.allocated, State.setReference_world]
      exact still
  | bind _ =>
      rw [State.setReference_world]
      exact still

namespace Point

/-- The builtins that are called on behalf of a point, in order. -/
def invocations (point : Point) : List Invocation :=
  (point.history .global).filterMap invocation?

end Point

theorem Threads.record? {points : List Point} (threads : Threads state points last)
    (each : ∀ point ∈ points, ∀ last, point.last? = some last →
      last.world.record? = point.state.world.record?.map (·.after point.invocations)) :
    last.world.record? = state.world.record?.map (·.after (points.flatMap Point.invocations)) := by
  induction threads with
  | nil state => simp only [List.flatMap_nil, WorkRecord.after_nil, Option.map_id']
  | @cons point rest middle last ended _ ih =>
      have first := each point List.mem_cons_self middle ended
      rw [ih fun other listed => each other (List.mem_cons_of_mem _ listed), first, Option.map_map]
      congr 1
      funext record
      rw [List.flatMap_cons, WorkRecord.after_append]
      rfl

/-- The builtins that a run calls, in order. -/
def invocations (fuel : Nat) (program : Program) (entry : FunctionId) (limit : Nat)
    (world : World) : List Invocation :=
  (runPoints fuel program entry limit world).flatMap Point.invocations

variable {fuel limit : Nat} {program : Program} {entry : FunctionId} {world : World}

end Machine

/-! ### Runs -/

end MiniC
