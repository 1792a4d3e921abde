import MiniC.Builtin.Invoke

/-!
What builtin functions do to the heap.

All but one leave it alone, however they end; that one overwrites the first
elements of two arrays. So what holds of the heap as it is, and after two arrays
have been overwritten, holds behind every builtin.
-/

namespace MiniC.Builtin

variable {Kept : Heap → Prop} {args : List Value} {world : World}

private theorem writeThen_heap {bytes : ByteArray} {next : World → Outcome} (same : Kept world.heap)
    (kept : ∀ sink, Kept (next { world with sink }).world.heap) :
    Kept (writeThen world bytes next).world.heap := by
  unfold writeThen
  simp only
  split
  · exact kept _
  · exact same

private theorem runFwrite_heap (same : Kept world.heap) :
    Kept (runFwrite args world).world.heap := by
  unfold runFwrite
  simp only
  split
  · split
    · split
      · exact same
      · exact writeThen_heap same fun _ => same
    · exact same
  · exact same

private theorem runSyncR_heap (same : Kept world.heap) : Kept (runSyncR args world).world.heap := by
  unfold runSyncR
  simp only
  split
  · exact same
  · exact same

private theorem runPullTheRest_heap (same : Kept world.heap)
    (overwritten : ∀ first second numbers others,
      Kept ((world.heap.modify first (overwrite numbers)).modify second (overwrite others))) :
    Kept (runPullTheRest args world).world.heap := by
  unfold runPullTheRest
  split
  · simp only
    split
    · exact overwritten _ _ _ _
    · exact same
  · exact same

theorem invoke_heap (builtin : Builtin) (same : Kept world.heap)
    (overwritten : ∀ first second numbers others,
      Kept ((world.heap.modify first (overwrite numbers)).modify second (overwrite others))) :
    Kept (builtin.invoke args world).world.heap := by
  cases builtin with
  | printf => exact writeThen_heap same fun _ => same
  | puts => exact writeThen_heap same fun _ => writeThen_heap same fun _ => same
  | putc => exact writeThen_heap same fun _ => same
  | fwrite => exact runFwrite_heap same
  | syncR => exact runSyncR_heap same
  | pullTheRest => exact runPullTheRest_heap same overwritten
  | _ => exact same

end MiniC.Builtin
