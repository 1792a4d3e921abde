import MiniC.Proofs.Soundness.Builtin

/-!
What a script pulls out of the record of its host.

Two arrays take the personal integers and the storage if both have just the right
length; otherwise neither is touched. One array may stand for both: then the
storage is what it holds in the end.
-/

namespace MiniC

def Kind.converted (kind : Kind) (numbers : List Int32) : Array Value :=
  (numbers.map fun number => (Value.i32 number).convert kind).toArray

namespace Builtin

private theorem overwrite_exact {numbers : List Int32} {kind : Kind} {elements : Array Value}
    (exact : elements.size = numbers.length) :
    overwrite numbers (.array kind elements) = .array kind (kind.converted numbers) := by
  rw [overwrite, exact, List.take_length, Array.extract_eq_empty_of_le (by omega),
    Array.append_empty]
  rfl

private theorem overwrite_sized (numbers : List Int32) (kind : Kind) (elements : Array Value) :
    ∃ fresh, overwrite numbers (.array kind elements) = .array kind fresh ∧
      fresh.size = elements.size :=
  ⟨_, rfl, congrArg Prod.snd (Soundness.overwrite_shape numbers (.array kind elements))⟩

private theorem arrayLength?_of_stored {heap : Heap} {address : Address} {kind : Kind}
    {elements : Array Value} (stored : heap[address]? = some (.array kind elements)) :
    arrayLength? heap address = some elements.size := by
  rw [arrayLength?, stored]

def pulled (heap : Heap) (ints storage : Address) (record : WorkRecord) : Heap :=
  (heap.modify ints (overwrite record.personalInts.toList)).modify storage
    (overwrite record.storage)

variable {world : World} {heap : Heap} {record : WorkRecord} {ints storage : Address}
  {intsKind storageKind : Kind} {intsOld storageOld : Array Value}

private theorem invoke_pullTheRest (given : world.record? = some record)
    (intsStored : world.heap[ints]? = some (.array intsKind intsOld))
    (storageStored : world.heap[storage]? = some (.array storageKind storageOld)) :
    invoke .pullTheRest [.array ints, .array storage] world =
      if intsOld.size = 12 ∧ storageOld.size = record.storage.length then
        .ok .void { world with heap := pulled world.heap ints storage record }
      else .ok .void world := by
  change runPullTheRest [.array ints, .array storage] world = _
  simp only [runPullTheRest, argAt, List.getElem?_cons_zero, List.getElem?_cons_succ,
    Option.getD_some, given, arrayLength?_of_stored intsStored,
    arrayLength?_of_stored storageStored, Option.some.injEq, Bool.and_eq_true, decide_eq_true_eq]
  rfl

private theorem pulled_storage (stored : heap[storage]? = some (.array storageKind storageOld))
    (fitting : storageOld.size = record.storage.length) :
    (pulled heap ints storage record)[storage]? =
      some (.array storageKind (storageKind.converted record.storage)) := by
  -- the array may have taken the integers before
  have between : ∃ fresh, (heap.modify ints (overwrite record.personalInts.toList))[storage]? =
      some (.array storageKind fresh) ∧ fresh.size = storageOld.size := by
    rw [Array.getElem?_modify, stored]
    split
    · obtain ⟨fresh, overwritten, sized⟩ :=
        overwrite_sized record.personalInts.toList storageKind storageOld
      exact ⟨fresh, congrArg some overwritten, sized⟩
    · exact ⟨storageOld, rfl, rfl⟩
  obtain ⟨fresh, here, sized⟩ := between
  rw [pulled, Array.getElem?_modify, if_pos rfl, here]
  exact congrArg some (overwrite_exact (sized.trans fitting))

private theorem pulled_ints (stored : heap[ints]? = some (.array intsKind intsOld))
    (fitting : intsOld.size = 12) (different : ints ≠ storage) :
    (pulled heap ints storage record)[ints]? =
      some (.array intsKind (intsKind.converted record.personalInts.toList)) := by
  have exact : intsOld.size = record.personalInts.toList.length := by
    rw [fitting, Vector.length_toList]
  rw [pulled, Array.getElem?_modify, if_neg different.symm, Array.getElem?_modify, if_pos rfl,
    stored]
  exact congrArg some (overwrite_exact exact)

private theorem pulled_other {other : Address} (notInts : other ≠ ints)
    (notStorage : other ≠ storage) :
    (pulled heap ints storage record)[other]? = heap[other]? := by
  rw [pulled, Array.getElem?_modify, if_neg notStorage.symm, Array.getElem?_modify,
    if_neg notInts.symm]

private theorem shape?_pulled (address : Address) :
    (pulled heap ints storage record).shape? address = heap.shape? address := by
  rw [pulled, Heap.shape?_modify _ _ fun object _ => Soundness.overwrite_shape _ object,
    Heap.shape?_modify _ _ fun object _ => Soundness.overwrite_shape _ object]

/-- The call always succeeds and leaves sink and record alone. If both lengths fit, the arrays hold
the storage and, unless they are one array, the personal integers; if not, the heap is as it was. No
other object changes, and no array changes its kind or its length. -/
theorem pull_copies_both_or_neither (given : world.record? = some record)
    (intsStored : world.heap[ints]? = some (.array intsKind intsOld))
    (storageStored : world.heap[storage]? = some (.array storageKind storageOld)) :
    ∃ heap : Heap,
      invoke .pullTheRest [.array ints, .array storage] world = .ok .void { world with heap } ∧
        (if intsOld.size = 12 ∧ storageOld.size = record.storage.length then
          heap[storage]? = some (.array storageKind (storageKind.converted record.storage)) ∧
            (ints ≠ storage → heap[ints]? =
              some (.array intsKind (intsKind.converted record.personalInts.toList)))
        else heap = world.heap) ∧
        (∀ other, other ≠ ints → other ≠ storage → heap[other]? = world.heap[other]?) ∧
        ∀ address, heap.shape? address = world.heap.shape? address := by
  rw [invoke_pullTheRest given intsStored storageStored]
  by_cases fitting : intsOld.size = 12 ∧ storageOld.size = record.storage.length
  · rw [if_pos fitting]
    refine ⟨pulled world.heap ints storage record, rfl, ?_, fun _ => pulled_other, shape?_pulled⟩
    rw [if_pos fitting]
    exact ⟨pulled_storage storageStored fitting.2, pulled_ints intsStored fitting.1⟩
  · rw [if_neg fitting]
    refine ⟨world.heap, rfl, ?_, fun _ _ _ => rfl, fun _ => rfl⟩
    rw [if_neg fitting]

/-- One array of unsigned numbers stands for both, and the storage wins. -/
theorem pull_into_one_array :
    let record : WorkRecord :=
      .new WorkRecord.zeroHash (Vector.replicate 12 7) (List.replicate 12 (-1))
    let old : Array Value := Array.replicate 12 (.u32 0)
    let world : World := ⟨#[.array .u32 old], .unlimited, some record⟩
    world.record? = some record ∧ world.heap[0]? = some (.array .u32 old) ∧
      ∃ heap : Heap,
        invoke .pullTheRest [.array 0, .array 0] world = .ok .void { world with heap } ∧
          heap[0]? = some (.array .u32 (Array.replicate 12 (.u32 4294967295))) := by
  intro record old world
  have given : world.record? = some record := rfl
  have stored : world.heap[0]? = some (.array .u32 old) := rfl
  obtain ⟨heap, called, copied, -, -⟩ := pull_copies_both_or_neither given stored stored
  rw [if_pos ⟨rfl, rfl⟩] at copied
  exact ⟨given, stored, heap, called, copied.1⟩

end Builtin
end MiniC
