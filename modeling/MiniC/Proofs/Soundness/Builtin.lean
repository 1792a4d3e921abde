import MiniC.Proofs.Soundness.Heap

/-!
Builtin functions are well behaved.

Whatever its arguments are, a builtin returns a value of its return type and
leaves a well-typed heap behind; only output can fail.
-/

namespace MiniC.Soundness

open Lowering

variable {G : Guarantee} {heap : Heap}

/-- How a call of a builtin with a return type may end, when it starts with a heap. -/
structure OutcomeTyped (G : Guarantee) (heap : Heap) (ret : Ty) (outcome : Builtin.Outcome) :
    Prop where
  grown : Grown G heap outcome.world.heap
  ok : ∀ value, outcome.result = .ok value → HasType G outcome.world.heap value ret
  error : ∀ error, outcome.result = .error error → ∃ reason, error = .output reason

private theorem OutcomeTyped.of_ok {ret : Ty} {value : Value} {world : World}
    (grown : Grown G heap world.heap) (typed : HasType G world.heap value ret) :
    OutcomeTyped G heap ret (.ok value world) where
  grown := grown
  ok := by
    intro other same
    cases same
    exact typed
  error := by
    intro error impossible
    cases impossible

theorem OutcomeTyped.writeThen {ret : Ty} {world : World} {bytes : ByteArray}
    {next : World → Builtin.Outcome} (grown : Grown G heap world.heap)
    (continues : ∀ sink, OutcomeTyped G heap ret (next { world with sink })) :
    OutcomeTyped G heap ret (Builtin.writeThen world bytes next) := by
  unfold Builtin.writeThen
  simp only
  split
  · exact continues _
  · refine ⟨grown, ?_, ?_⟩
    · intro value impossible
      cases impossible
    · intro error same
      cases same
      exact ⟨_, rfl⟩

theorem overwrite_shape (numbers : List Int32) (object : Object) :
    (Builtin.overwrite numbers object).shape = object.shape := by
  cases object with
  | struct name members fields => rfl
  | array kind elements =>
      simp only [Builtin.overwrite, Object.shape, Array.size_append, List.size_toArray,
        List.length_map, List.length_take, Array.size_extract, Prod.mk.injEq, true_and]
      omega

private theorem overwrite_typed (numbers : List Int32) {object : Object}
    (typed : ObjectTyped G object) :
    ObjectTyped G (Builtin.overwrite numbers object) := by
  cases object with
  | struct name members fields => exact typed
  | array kind elements =>
      refine ⟨?_, ?_⟩
      · intro index ty value cell content
        cases cell
        have listed := Array.mem_of_getElem? content
        simp only [Builtin.overwrite, Object.cells, Array.mem_append, List.mem_toArray,
          List.mem_map] at listed
        rcases listed with ⟨number, _, rfl⟩ | old
        · exact G.typed (Value.ty?_convert kind _)
        · obtain ⟨offset, bound, rfl⟩ := Array.mem_extract_iff_getElem.mp old
          exact typed.cells _ (.num kind) _ rfl (Array.getElem?_eq_getElem _)
      · intro name members impossible
        cases impossible

theorem HeapTyped.overwrite (typed : HeapTyped G heap) (address : Address) (numbers : List Int32) :
    Grown G heap (heap.modify address (Builtin.overwrite numbers)) :=
  typed.modify (fun object _ => overwrite_shape numbers object)
    (fun object here => overwrite_typed numbers (typed address object here))

variable {args : List Value} {world : World}

private theorem runPrintf_typed (typed : HeapTyped G world.heap) :
    OutcomeTyped G world.heap (.num .i32) (Builtin.runPrintf args world) :=
  .writeThen (.refl typed) fun _ => .of_ok (.refl typed) (hasType_of_ty? rfl)

private theorem runPuts_typed (typed : HeapTyped G world.heap) :
    OutcomeTyped G world.heap (.num .i32) (Builtin.runPuts args world) := by
  unfold Builtin.runPuts
  refine .writeThen (.refl typed) fun sink => ?_
  exact .writeThen (.refl typed) fun _ => .of_ok (.refl typed) (hasType_of_ty? rfl)

private theorem runPutc_typed (typed : HeapTyped G world.heap) :
    OutcomeTyped G world.heap (.num .i32) (Builtin.runPutc args world) :=
  .writeThen (.refl typed) fun _ => .of_ok (.refl typed) (hasType_of_ty? rfl)

private theorem runFwrite_typed (typed : HeapTyped G world.heap) :
    OutcomeTyped G world.heap (.num .i64) (Builtin.runFwrite args world) := by
  unfold Builtin.runFwrite
  simp only
  split
  · split
    · split
      · exact .of_ok (.refl typed) (hasType_of_ty? rfl)
      · exact .writeThen (.refl typed) fun _ => .of_ok (.refl typed) (hasType_of_ty? rfl)
    · exact .of_ok (.refl typed) (hasType_of_ty? rfl)
  · exact .of_ok (.refl typed) (hasType_of_ty? rfl)

private theorem runCheckPow_typed (typed : HeapTyped G world.heap) :
    OutcomeTyped G world.heap (.num .i32) (Builtin.runCheckPow args world) := by
  unfold Builtin.runCheckPow
  exact .of_ok (.refl typed) (hasType_of_ty? rfl)

private theorem runSyncR_typed (typed : HeapTyped G world.heap) :
    OutcomeTyped G world.heap .void (Builtin.runSyncR args world) := by
  unfold Builtin.runSyncR
  simp only
  split
  · exact .of_ok (.refl typed) trivial
  · exact .of_ok (.refl typed) trivial

private theorem runPullTheRest_typed (typed : HeapTyped G world.heap) :
    OutcomeTyped G world.heap .void (Builtin.runPullTheRest args world) := by
  unfold Builtin.runPullTheRest
  split
  · rename_i ints storage record _ _ _
    simp only
    split
    · have first := typed.overwrite ints record.personalInts.toList
      exact .of_ok (first.trans (first.typed.overwrite storage record.storage)) trivial
    · exact .of_ok (.refl typed) trivial
  · exact .of_ok (.refl typed) trivial

/-- Every builtin ends as its signature says. -/
theorem invoke_typed (builtin : Builtin) (args : List Value) (world : World)
    (typed : HeapTyped G world.heap) :
    OutcomeTyped G world.heap builtin.signature.ret (builtin.invoke args world) := by
  cases builtin with
  | printf => exact runPrintf_typed typed
  | puts => exact runPuts_typed typed
  | putc => exact runPutc_typed typed
  | fwrite => exact runFwrite_typed typed
  | checkPow => exact runCheckPow_typed typed
  | syncR => exact runSyncR_typed typed
  | pullTheRest => exact runPullTheRest_typed typed
  | _ => exact .of_ok (.refl typed) (hasType_of_ty? rfl)

end MiniC.Soundness
